import Myndaix.Controller.Ceiling

/-! Where the cursor moves: delivery is seen through markers that name the tip of a review but not
its base, and everybody's reviews of the tip leave the same marker.
-/

namespace Controller

open Interaction Interaction.Program Relational

-- Accounted ranges

/-- The range was reviewed as a whole, is empty, or was flagged as too large. -/
def Accounted (git : Git) (world : World) (range : Range) : Prop :=
  range ∈ world.delivered ∨ git.bytes range.base range.tip = 0 ∨ range ∈ world.flags

/-- The ranges, the latest first, lead from the start to the end. -/
def Chain (start : Sha) : List Range → Sha → Prop
  | [], finish => start = finish
  | latest :: earlier, finish => latest.tip = finish ∧ Chain start earlier latest.base

/-- A diff that a review could take: not empty and within both budgets. -/
def Reviewable (config : Config) (git : Git) (base commit : Sha) : Prop :=
  git.bytes base commit ≠ 0
  ∧ WithinBudgets config (git.lines base commit) (git.bytes base commit)

/-- A head is claimed only when its markers are of reviews from the cursor on, and a commit that was
sized at a second try is not reviewable.
-/
def Careful (config : Config) (git : Git) (key : Key) (world : World)
    : (query : Query) → Answer query → Prop
  | .claimDispatch target _, won =>
      won = true
      → ∀ range ∈ world.done,
          range.tip = target → ∀ row, world.cursor key = some row → range.base = row.reviewedSha
  | .diffNumstat base commit, some _ =>
      ⟨.diffNumstat base commit, none⟩ ∈ world.log → ¬Reviewable config git base commit
  | .diff base commit, some _ =>
      ⟨.diff base commit, none⟩ ∈ world.log → ¬Reviewable config git base commit
  | _, _ => True

/-- What happens between two calls, where a new marker of the pending head is of a review from the
cursor on.
-/
structure Matches (key : Key) (before after : World) : Prop extends Elapses key before after where
  markers
    : ∀ range ∈ after.done,
        range ∉ before.done
        → ∀ row,
            before.cursor key = some row
            → row.pendingSha = some range.tip
            → range.base = row.reviewedSha

/-- The commits of a cursor. -/
structure Place where
  baseline : Sha
  reviewed : Sha
  pending : Option Sha

def Cursor.place (row : Cursor) : Place where
  baseline := row.baselineSha
  reviewed := row.reviewedSha
  pending := row.pendingSha

def World.place (key : Key) (world : World) : Option Place :=
  (world.cursor key).map Cursor.place

/-- What the probes have found is so, and nothing reviewable was sized at a second try. -/
structure Honest (config : Config) (git : Git) (log : History) : Prop where
  lines
    : ∀ base commit columns,
        ⟨.diffNumstat base commit, some columns⟩ ∈ log → diffLines columns = git.lines base commit
  bytes
    : ∀ base commit patch,
        ⟨.diff base commit, some patch⟩ ∈ log → diffBytes patch = git.bytes base commit
  retried : ∀ base commit, Retried base commit log → ¬Reviewable config git base commit

/-- The markers of the pending head are of reviews from the cursor on, and the cursor has come from
its baseline over accounted ranges.
-/
structure Trusted (config : Config) (git : Git) (key : Key) (world : World) : Prop where
  unique : Unique Cursor.key world.rows
  markers
    : ∀ place pending,
        world.place key = some place
        → place.pending = some pending
        → ∀ range ∈ world.done, range.tip = pending → range.base = place.reviewed
  done : ∀ range ∈ world.done, range ∈ world.delivered
  moves : ∀ range ∈ world.moves, Accounted git world range
  unseeded : world.place key = none → world.moves = []
  chain
    : ∀ place,
        world.place key = some place → Chain place.baseline world.moves place.reviewed
  log : Honest config git world.log

section Elapsing

variable {config : Config} {git : Git} {key : Key} {before middle after : World}

theorem Matches.refl (world : World) : Matches key world world where
  toElapses := Elapses.refl world
  markers := fun _ mem isNew => absurd mem isNew

theorem Matches.trans (earlier : Matches key before middle) (later : Matches key middle after)
    : Matches key before after where
  toElapses := earlier.toElapses.trans later.toElapses
  markers := by
    intro range mem isNew row isRow pending
    by_cases known : range ∈ middle.done
    · exact earlier.markers range known isNew row isRow pending
    · exact later.markers range mem known row (earlier.cursor ▸ isRow) pending

/-- What is accounted for stays so. -/
theorem Accounted.grow {range : Range} (accounted : Accounted git before range)
    (delivered : before.delivered ⊆ after.delivered) (flags : before.flags ⊆ after.flags)
    : Accounted git after range :=
  accounted.imp (fun mem => delivered mem) (Or.imp_right fun mem => flags mem)

/-- Time passes, and reviews are delivered. -/
theorem Trusted.elapses (trusted : Trusted config git key before)
    (matched : Matches key before after)
    : Trusted config git key after := by
  have place : after.place key = before.place key :=
    congrArg (Option.map Cursor.place) matched.cursor
  constructor
  · exact matched.unique trusted.unique
  · intro here pending isPlace isPending range mem isTip
    rw [place] at isPlace
    by_cases known : range ∈ before.done
    · exact trusted.markers here pending isPlace isPending range known isTip
    · obtain ⟨row, isRow, rfl⟩ := Option.map_eq_some_iff.mp isPlace
      exact matched.markers range mem known row isRow (isTip ▸ isPending)
  · intro range mem
    rcases matched.done range mem with known | delivered
    · exact matched.delivered (trusted.done range known)
    · exact delivered
  · intro range mem
    rw [matched.moves] at mem
    exact (trusted.moves range mem).grow matched.delivered (matched.flags ▸ List.Subset.refl _)
  · rw [place, matched.moves]
    exact trusted.unseeded
  · rw [place, matched.moves]
    exact trusted.chain
  · exact matched.log ▸ trusted.log

end Elapsing

-- Calls

/-- The cursor moves only over an accounted range. -/
def MovesOver (git : Git) (key : Key) (world : World) : Query → Prop
  | .advanceCursor tip | .skipTo tip =>
      ∀ row, world.cursor key = some row → Accounted git world { base := row.reviewedSha, tip }
  | _ => True

/-- Where a verb takes the cursor. -/
inductive Displaces : Verb → Option Cursor → Place → Prop
  | seeds (head : Sha) (now : Time)
    : Displaces (.upsertBaseline head now) none
      { baseline := head, reviewed := head, pending := none }
  | claims {head : Sha} {staleBefore now : Time} (row : Cursor)
    : Displaces (.claimDispatch head staleBefore now) (some row)
      { row.place with pending := some head }
  | advances {head : Sha} {now : Time} (row : Cursor)
    : Displaces (.advanceCursor head now) (some row)
        { row.place with reviewed := head, pending := none }
  | skips {head : Sha} {now : Time} (row : Cursor)
    : Displaces (.skipTo head now) (some row) { row.place with reviewed := head, pending := none }
  | releases {head : Sha} (row : Cursor) : Displaces (.releaseDispatch head) (some row) row.place
  | forgives {head : Sha} (row : Cursor) : Displaces (.forgiveTransient head) (some row) row.place
  | blocks {head : Sha} {maxAttempts : Int} {now : Time} (row : Cursor)
    : Displaces (.markBlocked head maxAttempts now) (some row) row.place

/-- A verb that wins displaces the cursor. -/
theorem Moves.displaces {key : Key} {verb : Verb} {before : Option Cursor} {after : Cursor}
    (moves : Moves key verb before after)
    : Displaces verb before after.place := by
  cases moves with
  | upsertBaseline head now => exact .seeds head now
  | claimDispatch now unreviewed unblocked free => exact .claims _
  | releaseDispatch pending dispatching => exact .releases _
  | forgiveTransient pending held => exact .forgives _
  | advanceCursor now pending => exact .advances _
  | skipTo now unreviewed => exact .skips _
  | markBlocked now pending exhausted dispatching => exact .blocks _

variable {query : Query}

section Calls

variable {config : Config} {git : Git} {key : Key} {world : World} {base commit : Sha}
  {log : History}

/-- A probe was retried before, or is retried now. -/
theorem Retried.snoc {event : Event Query Answer} (retried : Retried base commit (log ++ [event]))
    : Retried base commit log
      ∨ (∃ columns,
          event = ⟨.diffNumstat base commit, some columns⟩
          ∧ ⟨.diffNumstat base commit, none⟩ ∈ log)
      ∨ ∃ patch, event = ⟨.diff base commit, some patch⟩ ∧ ⟨.diff base commit, none⟩ ∈ log := by
  obtain ⟨earlier, later, split, failed⟩ := retried
  rcases List.eq_nil_or_concat later with rfl | ⟨init, last, rfl⟩
  · rcases failed with ⟨_, lines, columns, mem, _⟩ | ⟨_, bytes, patch, mem, _⟩
    · cases mem
    · cases mem
  · rw [List.concat_eq_append, ← List.append_assoc] at split
    obtain ⟨rfl, isLast⟩ := List.append_inj' split rfl
    cases isLast
    rw [List.concat_eq_append] at failed
    rcases failed with ⟨mem, lines, columns, found, same⟩ | ⟨mem, bytes, patch, found, same⟩
    · rcases List.mem_append.mp found with found | isEvent
      · exact .inl ⟨earlier, init, rfl, .inl ⟨mem, lines, columns, found, same⟩⟩
      · exact .inr (.inl ⟨columns, (List.mem_singleton.mp isEvent).symm,
          List.mem_append_left init mem⟩)
    · rcases List.mem_append.mp found with found | isEvent
      · exact .inl ⟨earlier, init, rfl, .inr ⟨mem, bytes, patch, found, same⟩⟩
      · exact .inr (.inr ⟨patch, (List.mem_singleton.mp isEvent).symm,
          List.mem_append_left init mem⟩)

theorem Honest.nil : Honest config git [] where
  lines := nofun
  bytes := nofun
  retried := by
    rintro base commit ⟨earlier, later, split, failed⟩
    obtain ⟨rfl, rfl⟩ := List.append_eq_nil_iff.mp split.symm
    rcases failed with ⟨mem, _⟩ | ⟨mem, _⟩
    · cases mem
    · cases mem

/-- One answer more of the truth. -/
theorem Honest.snoc (honest : Honest config git world.log) {answer : Answer query}
    (truthful : Truthful git key world query answer)
    (careful : Careful config git key world query answer)
    : Honest config git (world.log ++ [⟨query, answer⟩]) where
  lines := by
    intro base commit columns mem
    rcases List.mem_append.mp mem with known | isNew
    · exact honest.lines base commit columns known
    · cases List.mem_singleton.mp isNew
      exact truthful columns rfl
  bytes := by
    intro base commit patch mem
    rcases List.mem_append.mp mem with known | isNew
    · exact honest.bytes base commit patch known
    · cases List.mem_singleton.mp isNew
      exact truthful patch rfl
  retried := by
    intro base commit retried
    rcases retried.snoc with earlier | ⟨columns, same, failed⟩ | ⟨patch, same, failed⟩
    · exact honest.retried base commit earlier
    · cases same
      exact careful failed
    · cases same
      exact careful failed

theorem Honest.after (honest : Honest config git world.log) {answer : Answer query}
    (truthful : Truthful git key world query answer)
    (careful : Careful config git key world query answer)
    : Honest config git (world.after key query answer).log := by
  by_cases reads : query = .getCursor
  · subst reads
    exact .nil
  · rw [World.after_log query answer reads]
    exact honest.snoc truthful careful

/-- Flags stay. -/
theorem flags_grow (flags : List Range) (query : Query) (answer : Answer query)
    : flags ⊆ flagsAfter flags query answer := by
  unfold flagsAfter
  split
  · exact List.subset_cons_self _ flags
  · exact List.Subset.refl flags

/-- A call that moves no commit of the cursor. -/
theorem Trusted.stays (trusted : Trusted config git key world) {answer : Answer query}
    (place : (world.after key query answer).place key = world.place key)
    (moves : (world.after key query answer).moves = world.moves)
    (honest : Honest config git (world.after key query answer).log)
    : Trusted config git key (world.after key query answer) := by
  constructor
  · exact World.after_unique trusted.unique query answer
  · rw [place]
    exact trusted.markers
  · exact trusted.done
  · intro range mem
    rw [moves] at mem
    exact (trusted.moves range mem).grow (List.Subset.refl _) (flags_grow _ query answer)
  · rw [place, moves]
    exact trusted.unseeded
  · rw [place, moves]
    exact trusted.chain
  · exact honest

/-- A statement that is lost moves nothing, and one that is won displaces the cursor. -/
theorem Trusted.verb (trusted : Trusted config git key world) {answer : Answer query} {verb : Verb}
    {won : Bool} (runs : verbOf world.clock query = some verb)
    (isAnswer : won = (verb.call key world.rows).1)
    (honest : Honest config git (world.after key query answer).log)
    (lost : won = false → (world.after key query answer).moves = world.moves)
    (displaced
      : ∀ place,
          won = true
          → (world.after key query answer).place key = some place
          → Displaces verb (world.cursor key) place
          → Trusted config git key (world.after key query answer))
    : Trusted config git key (world.after key query answer) := by
  have rows : (world.after key query answer).rows = (verb.call key world.rows).2 := by
    unfold World.after
    rw [runs]
  have cursor
      : (world.after key query answer).cursor key = getCursor key (verb.call key world.rows).2 :=
    congrArg (getCursor key) rows
  rcases Verb.called verb trusted.unique with ⟨isLost, unchanged⟩ | ⟨isWon, row, found, moves⟩
  · refine trusted.stays ?_ (lost (isAnswer.trans isLost)) honest
    rw [World.place, World.place, cursor, unchanged]
    rfl
  · refine displaced row.place (isAnswer.trans isWon) ?_ moves.displaces
    rw [World.place, cursor, found]
    rfl

/-- A cursor that was moved over an accounted range. -/
theorem Trusted.advances (trusted : Trusted config git key world) {answer : Answer query}
    {row : Cursor} {tip : Sha} (isRow : world.cursor key = some row)
    (accounted : Accounted git world { base := row.reviewedSha, tip })
    (isPlace
      : (world.after key query answer).place key
        = some { row.place with reviewed := tip, pending := none })
    (moves
      : (world.after key query answer).moves = { base := row.reviewedSha, tip } :: world.moves)
    (honest : Honest config git (world.after key query answer).log)
    : Trusted config git key (world.after key query answer) := by
  have wasPlace : world.place key = some row.place := by
    rw [World.place, isRow]
    rfl
  constructor
  · exact World.after_unique trusted.unique query answer
  · intro place pending here isPending
    rw [isPlace] at here
    cases here
    cases isPending
  · exact trusted.done
  · intro range mem
    rw [moves] at mem
    have known : Accounted git world range := by
      rcases List.mem_cons.mp mem with rfl | mem
      · exact accounted
      · exact trusted.moves range mem
    exact known.grow (List.Subset.refl _) (flags_grow _ query answer)
  · rw [isPlace]
    exact nofun
  · intro place here
    rw [isPlace] at here
    cases here
    rw [moves]
    exact ⟨rfl, trusted.chain row.place wasPlace⟩
  · exact honest

/-- Every call that moves the cursor over accounted ranges keeps it trusted. -/
theorem Trusted.called (trusted : Trusted config git key world) {answer : Answer query}
    (truthful : Truthful git key world query answer)
    (careful : Careful config git key world query answer) (allowed : MovesOver git key world query)
    : Trusted config git key (world.after key query answer) := by
  have honest := trusted.log.after truthful careful
  have stays (moves : (world.after key query answer).moves = world.moves) {place : Place}
      (isPlace : (world.after key query answer).place key = some place)
      (kept : some place = world.place key)
      : Trusted config git key (world.after key query answer) :=
    trusted.stays (isPlace.trans kept) moves honest
  cases query with
  | upsertBaseline head =>
      refine trusted.verb rfl truthful honest (fun _ => rfl) fun place won isPlace displaces => ?_
      cases isCursor : world.cursor key with
      | some row =>
          rw [isCursor] at displaces
          cases displaces
      | none =>
          rw [isCursor] at displaces
          have noMoves : world.moves = [] := trusted.unseeded (by rw [World.place, isCursor]; rfl)
          cases displaces
          constructor
          · exact World.after_unique trusted.unique (.upsertBaseline head) answer
          · intro here pending isHere isPending
            rw [isPlace] at isHere
            cases isHere
            cases isPending
          · exact trusted.done
          · exact trusted.moves
          · exact fun _ => noMoves
          · intro here isHere
            rw [isPlace] at isHere
            cases isHere
            change Chain head world.moves head
            rw [noMoves]
            rfl
          · exact honest
  | claimDispatch head staleBefore =>
      refine trusted.verb rfl truthful honest (fun _ => rfl) fun place won isPlace displaces => ?_
      cases isCursor : world.cursor key with
      | none =>
          rw [isCursor] at displaces
          cases displaces
      | some row =>
          have wasPlace : world.place key = some row.place := by
            rw [World.place, isCursor]
            rfl
          have markers := careful won
          rw [isCursor] at displaces
          cases displaces
          constructor
          · exact World.after_unique trusted.unique (.claimDispatch head staleBefore) answer
          · intro here pending isHere isPending range mem isTip
            rw [isPlace] at isHere
            cases isHere
            cases isPending
            exact markers range mem isTip row isCursor
          · exact trusted.done
          · exact trusted.moves
          · rw [isPlace]
            exact nofun
          · intro here isHere
            rw [isPlace] at isHere
            cases isHere
            exact trusted.chain row.place wasPlace
          · exact honest
  | releaseDispatch head | forgiveTransient head | markBlocked head maxAttempts =>
      refine trusted.verb rfl truthful honest (fun _ => rfl) fun place won isPlace displaces => ?_
      cases isCursor : world.cursor key with
      | none =>
          rw [isCursor] at displaces
          cases displaces
      | some row =>
          rw [isCursor] at displaces
          cases displaces
          refine stays rfl isPlace ?_
          rw [World.place, isCursor]
          rfl
  | advanceCursor head | skipTo head =>
      refine trusted.verb rfl truthful honest (fun lost => by rw [lost]; rfl)
        fun place won isPlace displaces => ?_
      cases isCursor : world.cursor key with
      | none =>
          rw [isCursor] at displaces
          cases displaces
      | some row =>
          rw [isCursor] at displaces
          cases displaces
          refine trusted.advances isCursor (allowed row isCursor) isPlace ?_ honest
          obtain rfl : answer = true := won
          rw [World.after, isCursor]
          rfl
  | _ => exact trusted.stays rfl rfl honest

end Calls

-- The looks

/-- The world in which markers can be trusted. -/
def watched (config : Config) (git : Git) (key : Key) : Setting Query Answer World where
  interferes := Matches key
  answers := fun query before answer after =>
    after = before.after key query answer
    ∧ Truthful git key before query answer
    ∧ Careful config git key before query answer
  permits := fun world query => Trusted config git key world ∧ MovesOver git key world query
  interferes_refl := Matches.refl
  interferes_trans := Matches.trans

/-- The calls that move no cursor. -/
def Stationary : Query → Prop
  | .advanceCursor _ | .skipTo _ => False
  | _ => True

/-- The calls that also leave the commits of the cursor, and its pending head, as they are. -/
def Placid : Query → Prop
  | .upsertBaseline _ | .claimDispatch _ _ | .advanceCursor _ | .skipTo _ => False
  | _ => True

section Looks

variable {config : Config} {git : Git} {key : Key} {world before after : World}

theorem Stationary.movesOver (stationary : Stationary query)
    : MovesOver git key world query := by
  cases query <;> first | exact stationary.elim | trivial

theorem Placid.stationary (placid : Placid query) : Stationary query := by
  cases query <;> first | exact placid.elim | trivial

theorem Neutral.placid (neutral : Neutral query) : Placid query := by
  cases query <;> first | exact neutral.elim | trivial

theorem Probing.placid (isProbe : Probing query) : Placid query := by
  cases query <;> first | exact isProbe.elim | trivial

/-- What is trusted lasts while the cursor stays. -/
theorem trusted_lasts : Steady (watched config git key) Stationary (Trusted config git key) where
  stable := fun trusted matched => trusted.elapses matched
  permits := fun stationary trusted => ⟨trusted, stationary.movesOver⟩
  step := by
    rintro query before answer after stationary trusted ⟨rfl, truthful, careful⟩
    exact trusted.called truthful careful stationary.movesOver

/-- The cursor is where it was when it was read. -/
def Agrees (key : Key) (cursor : Option Cursor) (world : World) : Prop :=
  world.place key = cursor.map Cursor.place

/-- Placid calls leave the cursor where it is. -/
theorem Placid.place (placid : Placid query) (trusted : Trusted config git key world)
    {answer : Answer query} (truthful : Truthful git key world query answer)
    : (world.after key query answer).place key = world.place key := by
  have verb {verb : Verb} (runs : verbOf world.clock query = some verb)
      (keeps
        : ∀ row place,
            Displaces verb (some row) place → place = row.place)
      (seeds : ∀ place, ¬Displaces verb none place)
      : (world.after key query answer).place key = world.place key := by
    have cursor
        : (world.after key query answer).cursor key
          = getCursor key (verb.call key world.rows).2 := by
      refine congrArg (getCursor key) ?_
      rw [World.after, runs]
    rcases Verb.called verb trusted.unique with ⟨_, unchanged⟩ | ⟨_, row, found, moves⟩
    · rw [World.place, World.place, cursor, unchanged]
      rfl
    · have displaces := moves.displaces
      cases isCursor : world.cursor key with
      | none =>
          rw [isCursor] at displaces
          exact absurd displaces (seeds _)
      | some before =>
          rw [isCursor] at displaces
          rw [World.place, World.place, cursor, found, isCursor]
          exact congrArg some (keeps before _ displaces)
  cases query with
  | upsertBaseline | claimDispatch | advanceCursor | skipTo => exact placid.elim
  | releaseDispatch | forgiveTransient | markBlocked =>
      exact verb rfl (fun row place displaces => by cases displaces; rfl)
        (fun place displaces => by cases displaces)
  | _ => rfl

/-- An assertion that the commits of the cursor and all that was ever known are enough for. -/
structure Lasting (key : Key) (holds : World → Prop) : Prop where
  lasts
    : ∀ {before after : World},
        holds before
        → after.place key = before.place key
        → before.delivered ⊆ after.delivered
        → before.flags ⊆ after.flags
        → holds after

theorem Lasting.steady {holds : World → Prop} (lasting : Lasting key holds)
    : Steady (watched config git key) Placid
        (fun world => Trusted config git key world ∧ holds world) where
  stable := by
    rintro before after ⟨trusted, holds⟩ matched
    have place : after.place key = before.place key :=
      congrArg (Option.map Cursor.place) matched.cursor
    exact ⟨trusted.elapses matched,
      lasting.lasts holds place matched.delivered (matched.flags ▸ List.Subset.refl _)⟩
  permits := fun placid here => ⟨here.1, placid.stationary.movesOver⟩
  step := by
    rintro query before answer after placid ⟨trusted, holds⟩ ⟨rfl, truthful, careful⟩
    exact ⟨trusted.called truthful careful placid.stationary.movesOver,
      lasting.lasts holds (placid.place trusted truthful) (List.Subset.refl _)
        (flags_grow _ query answer)⟩

/-- What is known of the cursor at each stage of a look. -/
def watching (config : Config) (git : Git) (key : Key) : Stages World where
  between := Trusted config git key
  known := fun cursor world => Trusted config git key world ∧ Agrees key cursor world
  delivered := fun row pending world =>
    Trusted config git key world
    ∧ Agrees key (some row) world
    ∧ Accounted git world { base := row.reviewedSha, tip := pending }
  observed := fun cursor _ world => Trusted config git key world ∧ Agrees key cursor world
  chosen := fun row _ choice world =>
    Trusted config git key world
    ∧ Agrees key (some row) world
    ∧ (choice.mode = .advance
        → choice.oversized config = false
        → git.bytes row.reviewedSha choice.sha = 0)
  passable := fun row target world =>
    Trusted config git key world
    ∧ Agrees key (some row) world
    ∧ Accounted git world { base := row.reviewedSha, tip := target }

theorem agrees_lasting (cursor : Option Cursor) : Lasting key (Agrees key cursor) where
  lasts := fun agrees place _ _ => place.trans agrees

theorem accounted_lasting (row : Cursor) (tip : Sha)
    : Lasting key (fun world =>
        Agrees key (some row) world ∧ Accounted git world { base := row.reviewedSha, tip }) where
  lasts := fun here place delivered flags => ⟨place.trans here.1, here.2.grow delivered flags⟩

theorem chosen_lasting (row : Cursor) (fact : Prop)
    : Lasting key (fun world => Agrees key (some row) world ∧ fact) where
  lasts := fun here place _ _ => ⟨place.trans here.1, here.2⟩

/-- An accounted range, from where the cursor still is. -/
theorem Agrees.movesOver {row : Cursor} {tip : Sha} (agrees : Agrees key (some row) world)
    (accounted : Accounted git world { base := row.reviewedSha, tip })
    : ∀ now, world.cursor key = some now
      → Accounted git world { base := now.reviewedSha, tip } := by
  intro now isCursor
  rw [Agrees, World.place, isCursor] at agrees
  have same : now.reviewedSha = row.reviewedSha :=
    congrArg Place.reviewed (Option.some.inj agrees)
  rw [same]
  exact accounted

/-- Sizes that were found are those of git. -/
theorem Honest.sizes {log : History} {base commit : Sha} {lines bytes : Nat}
    (honest : Honest config git log) (sized : SizedAs base commit lines bytes log)
    : git.lines base commit = lines ∧ git.bytes base commit = bytes := by
  obtain ⟨columns, mem, isLines⟩ := sized.lines
  obtain ⟨patch, found, isBytes⟩ := sized.bytes
  exact ⟨(honest.lines base commit columns mem).symm.trans isLines,
    (honest.bytes base commit patch found).symm.trans isBytes⟩

/-- What the chunker leaves behind unflagged is empty. -/
theorem Honest.leaves {log : History} {base head : Sha} {choice : Choice}
    (honest : Honest config git log) (leaves : Leaves config base head choice log)
    (unflagged : choice.oversized config = false)
    : git.bytes base choice.sha = 0 := by
  cases leaves with
  | late late =>
      obtain ⟨lines, bytes, sized, within⟩ := late.sized
      obtain ⟨sameLines, sameBytes⟩ := honest.sizes sized
      refine not_not.mp fun nonempty => honest.retried base choice.sha late.retried ⟨nonempty, ?_⟩
      rw [sameLines, sameBytes]
      exact within
  | empty lines sized => exact (honest.sizes sized).2
  | oversize lines bytes sized isOver oversized =>
      exact absurd (unflagged.symm.trans oversized) Bool.false_ne_true
  | noPath same none oversized =>
      exact absurd (unflagged.symm.trans oversized) Bool.false_ne_true

theorem logs_answered {answer : Answer query} (isProbe : Probing query)
    (answered : (watched config git key).answers query before answer after)
    : after.log = before.log ++ [⟨query, answer⟩] := by
  rw [answered.1]
  refine World.after_log query answer fun same => ?_
  cases same
  exact isProbe

/-- An answer to a call that moves no cursor. -/
theorem trusted_answered {answer : Answer query} (trusted : Trusted config git key before)
    (answered : (watched config git key).answers query before answer after)
    (stationary : Stationary query)
    : Trusted config git key after :=
  trusted_lasts.step stationary trusted answered

/-- An answer to a call that leaves the cursor where it is. -/
theorem Lasting.answered {holds : World → Prop} (lasting : Lasting key holds)
    {answer : Answer query} (here : Trusted config git key before ∧ holds before)
    (answered : (watched config git key).answers query before answer after) (placid : Placid query)
    : Trusted config git key after ∧ holds after :=
  lasting.steady.step placid here answered

/-- The calls of a dispatch move no cursor. -/
theorem dispatchStep_stationary {base target : Sha} {budget : Nat}
    : Asks Stationary (dispatchStep config base target budget) :=
  dispatchStep_asks (fun neutral => neutral.placid.stationary) trivial trivial (fun _ => trivial)
    trivial trivial trivial

/-- The stages are kept. -/
theorem watching_kept : (watching config git key).Kept (watched config git key) config where
  betweenLasts := trusted_lasts.fewer fun neutral => neutral.placid.stationary
  knownLasts := (agrees_lasting _).steady.fewer Neutral.placid
  deliveredLasts := (accounted_lasting _ _).steady.fewer Neutral.placid
  observedLasts := (agrees_lasting _).steady.fewer Neutral.placid
  chosenLasts := (chosen_lasting _ _).steady.fewer Neutral.placid
  passableLasts := (accounted_lasting _ _).steady.fewer Neutral.placid
  knownEnds := And.left
  deliveredKnown := fun here => ⟨here.1, here.2.1⟩
  observedEnds := And.left
  chosenEnds := And.left
  passableEnds := And.left
  reads := by
    intro world trusted
    refine ⟨⟨trusted, trivial⟩, fun answered => ?_⟩
    refine ⟨trusted_answered trusted answered trivial, ?_⟩
    obtain ⟨rfl, rfl, _⟩ := answered
    rfl
  finds := by
    intro row pending world known isPending
    refine ⟨⟨known.1, trivial⟩, fun answered => ?_⟩
    have still := (agrees_lasting (some row)).answered known answered trivial
    split
    · rename_i isFound
      refine ⟨still.1, still.2, ?_⟩
      obtain ⟨rfl, truthful, _⟩ := answered
      obtain ⟨range, mem, isTip⟩ := truthful isFound
      have isBase : range.base = row.reviewedSha :=
        known.1.markers row.place pending known.2 isPending range mem isTip
      have delivered : range ∈ world.delivered := known.1.done range mem
      rw [← isTip, ← isBase]
      exact .inl delivered
    · exact still
  advances := by
    intro row pending world here
    have allowed := here.2.1.movesOver here.2.2
    refine ⟨⟨here.1, allowed⟩, ?_⟩
    rintro won after ⟨rfl, truthful, careful⟩
    exact here.1.called truthful careful allowed
  forgives := by
    intro row pending world known _
    have asks : Asks Placid (tryForgiveTransient config pending) :=
      tryForgiveTransient_asks Neutral.placid trivial trivial trivial
    refine ((agrees_lasting (some row)).steady.runs asks known).weaken fun forgiven later here => ?_
    split
    · exact here.2.1
    · exact here.2
  observes := by
    intro cursor world known
    refine ⟨⟨known.1, trivial⟩, fun answered => ?_⟩
    have still := (agrees_lasting cursor).answered known answered trivial
    exact ⟨still.1, fun _ _ => still⟩
  seeds := fun observed =>
    ⟨⟨observed.1, trivial⟩, fun answered => trusted_answered observed.1 answered trivial⟩
  compares := by
    intro row head world observed _
    refine ⟨⟨observed.1, trivial⟩, fun answered => ?_⟩
    have still := (agrees_lasting (some row)).answered observed answered trivial
    split
    · rename_i isQuiet
      exact ⟨still.1, still.2, .inr (.inl (answered.2.1 isQuiet))⟩
    · exact still
  chooses := by
    intro row head world observed
    have found := chooseReviewTarget_finds config row.reviewedSha head world.log
    have probes
        : Steady (watched config git key) Probing
            (fun world => Trusted config git key world ∧ Agrees key (some row) world) :=
      (agrees_lasting (some row)).steady.fewer Probing.placid
    have kept := probes.logs World.log (fun matched => matched.log) logs_answered found observed
    refine kept.weaken fun choice later here => ⟨here.2.1, here.2.2, fun advances unflagged => ?_⟩
    have chosen := here.1.2
    unfold Chosen at chosen
    rw [advances] at chosen
    exact here.2.1.log.leaves chosen unflagged
  passes := by
    intro row head choice world chosen advances unflagged
    exact ⟨chosen.1, chosen.2.1, .inr (.inl (chosen.2.2 advances unflagged))⟩
  flags := by
    intro row head choice world chosen advances
    refine ⟨⟨chosen.1, trivial⟩, fun answered => ?_⟩
    have still := (agrees_lasting (some row)).answered ⟨chosen.1, chosen.2.1⟩ answered trivial
    split
    · rename_i isWritten
      refine ⟨still.1, still.2, .inr (.inr ?_)⟩
      obtain ⟨rfl, _⟩ := answered
      subst isWritten
      exact List.mem_cons_self
    · exact still.1
  skips := by
    intro row target world here
    have allowed := here.2.1.movesOver here.2.2
    refine ⟨⟨here.1, allowed⟩, ?_⟩
    rintro won after ⟨rfl, truthful, careful⟩
    exact here.1.called truthful careful allowed
  pardons := by
    intro row head choice world chosen _
    have asks : Asks Placid (tryForgiveTransient config choice.sha) :=
      tryForgiveTransient_asks Neutral.placid trivial trivial trivial
    exact ((chosen_lasting row _).steady.runs asks chosen).weaken fun _ _ here => here.2
  blocks := fun chosen _ =>
    ⟨⟨chosen.1, trivial⟩, fun answered => trusted_answered chosen.1 answered trivial⟩
  dispatches := by
    intro row head choice budget world chosen _
    exact (trusted_lasts.runs dispatchStep_stationary chosen.1).weaken fun _ _ here => here.2

/-- The world before the first look; markers may be there already. -/
structure World.Begins (world : World) : Prop where
  rows : world.rows = []
  moves : world.moves = []
  log : world.log = []
  done : ∀ range ∈ world.done, range ∈ world.delivered

/-- A world begins trusted. -/
theorem Trusted.begins (begins : world.Begins) : Trusted config git key world := by
  have absent : world.place key = none := by
    rw [World.place, World.cursor, begins.rows]
    rfl
  constructor
  · exact begins.rows ▸ List.nodup_nil
  · rw [absent]
    intro place pending same
    cases same
  · exact begins.done
  · rw [begins.moves]
    intro range mem
    cases mem
  · exact fun _ => begins.moves
  · rw [absent]
    intro place same
    cases same
  · exact begins.log ▸ Honest.nil

/-- In every run in which markers can be trusted and no reviewable commit is sized at a second try,
the cursor moves over accounted ranges only, and these lead from its baseline to where it is.
-/
theorem advances_accounted {start : World} (begins : start.Begins)
    (ticks : Ticks (watched config git key) config start world)
    : (∀ range ∈ world.moves, Accounted git world range)
      ∧ ∀ row, world.cursor key = some row → Chain row.baselineSha world.moves row.reviewedSha := by
  have trusted : Trusted config git key world :=
    ticks.invariant (.begins begins) (fun _ _ trusted => watching_kept.looks trusted)
      fun _ _ permitted => permitted.1
  refine ⟨trusted.moves, fun row isCursor => trusted.chain row.place ?_⟩
  rw [World.place, isCursor]
  rfl

end Looks

-- Samples

/-- A review is delivered and leaves its marker, if the cursor waits for this range or for another
head.
-/
def deliverMatching (key : Key) (range : Range) (world : World) : World :=
  if (world.cursor key).all
      (fun row => row.pendingSha ≠ some range.tip || row.reviewedSha = range.base) then
    { world with delivered := range :: world.delivered, done := range :: world.done }
  else world

def deliver (range : Range) (world : World) : World :=
  { world with delivered := range :: world.delivered, done := range :: world.done }

theorem deliver_elapses (key : Key) (range : Range) (world : World)
    : Elapses key world (deliver range world) :=
  { Elapses.refl world with
    delivered := List.subset_cons_self _ _
    done := by
      intro other mem
      rcases List.mem_cons.mp mem with rfl | mem
      · exact .inr List.mem_cons_self
      · exact .inl mem }

theorem deliverMatching_matches (key : Key) (range : Range) (world : World)
    : Matches key world (deliverMatching key range world) := by
  unfold deliverMatching
  split
  · rename_i waits
    refine { deliver_elapses key range world with markers := ?_ }
    intro other mem isNew row isRow isPending
    rcases List.mem_cons.mp mem with rfl | mem
    · rw [isRow] at waits
      rcases Bool.or_eq_true_iff.mp waits with notPending | isBase
      · exact absurd isPending (of_decide_eq_true notPending)
      · exact (of_decide_eq_true isBase).symm
    · exact absurd mem isNew
  · exact Matches.refl world

theorem until_matches (key : Key) (time : Time) (world : World)
    : Matches key world (until_ time world) :=
  { until_elapses key time world with markers := fun _ mem isNew => absurd mem isNew }

/-- The cursor is seeded, the new head is dispatched, and something is delivered before the last
look.
-/
def deliveredLooks (delivers : World → World)
    : List ((World → World) × ((query : Query) → Answer query)) :=
  [
    (until_ 1, ceilingAnswers (sampleSha 'a')),
    (until_ 10000, ceilingAnswers (sampleSha 'b')),
    (delivers, ceilingAnswers (sampleSha 'b'))
  ]

def endsMoved (delivered : Range) (world : World) : Bool :=
  decide (world.moves = [{ base := sampleSha 'a', tip := sampleSha 'b' }])
  && decide (world.delivered = [delivered])
  && decide (world.flags = [])

def carefulCheck (key : Key) (world : World) : (query : Query) → Answer query → Bool
  | .claimDispatch target _, won =>
      !won
      || world.done.all (fun range =>
        decide (range.tip = target → ∀ row ∈ world.cursor key, range.base = row.reviewedSha))
  | .diffNumstat base commit, some _ =>
      world.log.all (fun event => decide (event.1 ≠ .diffNumstat base commit))
  | .diff base commit, some _ => world.log.all (fun event => decide (event.1 ≠ .diff base commit))
  | _, _ => true

theorem carefulCheck_careful {config : Config} {git : Git} {key : Key} {world : World}
    {answer : Answer query} (checked : carefulCheck key world query answer = true)
    : Careful config git key world query answer := by
  cases query with
  | claimDispatch target staleBefore =>
      rintro rfl range mem isTip row isCursor
      have checked := of_decide_eq_true (List.all_eq_true.mp checked range mem)
      exact checked isTip row isCursor
  | diffNumstat base commit =>
      match answer with
      | none => trivial
      | some columns =>
          intro failed
          exact absurd rfl (of_decide_eq_true (List.all_eq_true.mp checked _ failed))
  | diff base commit =>
      match answer with
      | none => trivial
      | some patch =>
          intro failed
          exact absurd rfl (of_decide_eq_true (List.all_eq_true.mp checked _ failed))
  | _ => trivial

/-- A review of the dispatched range moves the cursor over it. -/
theorem advances_accounted_sample
    : ∃ world,
        world.moves = [{ base := sampleSha 'a', tip := sampleSha 'b' }]
        ∧ ∀ range ∈ world.moves, Accounted ceilingGit world range := by
  let key := sampleCursor.key
  let range : Range := { base := sampleSha 'a', tip := sampleSha 'b' }
  have ran
      : endsWith (endsMoved { base := sampleSha 'a', tip := sampleSha 'b' })
          (lookAll ceilingConfig sampleCursor.key (carefulCheck sampleCursor.key)
            (deliveredLooks
              (deliverMatching sampleCursor.key { base := sampleSha 'a', tip := sampleSha 'b' }))
            emptyWorld)
        = true := by
    decide +kernel
  have happens
      : ∀ look ∈ deliveredLooks (deliverMatching key range),
          ∀ world,
            Matches key world (look.1 world)
            ∧ ∀ query, Truthful ceilingGit key world query (scripted key look.2 world query) := by
    intro look mem world
    rcases List.mem_cons.mp mem with rfl | mem
    · exact ⟨until_matches key 1 world, fun query => ceilingAnswers_truthful _ key query world⟩
    · rcases List.mem_cons.mp mem with rfl | mem
      · exact ⟨until_matches key 10000 world,
          fun query => ceilingAnswers_truthful _ key query world⟩
      · cases List.mem_singleton.mp mem
        exact ⟨deliverMatching_matches key range world,
          fun query => ceilingAnswers_truthful _ key query world⟩
  have answers
      : ∀ look ∈ deliveredLooks (deliverMatching key range),
          ∀ query world,
            let answer := scripted key look.2 world query
            carefulCheck key world query answer = true
            → (watched ceilingConfig ceilingGit key).answers query world answer
                (world.after key query answer) := by
    intro look mem query world answer checked
    exact ⟨rfl, (happens look mem world).2 query, carefulCheck_careful checked⟩
  obtain ⟨world, ticks, checked⟩ :=
    Ticks.scripted .start (fun look mem world => (happens look mem world).1) answers ran
  obtain ⟨moved, _⟩ := Bool.and_eq_true_iff.mp checked
  have moves := of_decide_eq_true (Bool.and_eq_true_iff.mp moved).1
  have begins : emptyWorld.Begins := ⟨rfl, rfl, rfl, fun _ mem => nomatch mem⟩
  exact ⟨world, moves, (advances_accounted begins ticks).1⟩

/-- A review of the same tip from another base moves the cursor too, over a range that nobody
reviewed or flagged.
-/
theorem advances_unaccounted
    : ∃ world,
        Ticks (freely ceilingGit sampleCursor.key) ceilingConfig emptyWorld world
        ∧ ∃ range ∈ world.moves, ¬Accounted ceilingGit world range := by
  let key := sampleCursor.key
  let range : Range := { base := sampleSha '0', tip := sampleSha 'b' }
  have ran
      : endsWith (endsMoved { base := sampleSha '0', tip := sampleSha 'b' })
          (lookAll ceilingConfig sampleCursor.key (fun _ _ _ => true)
            (deliveredLooks (deliver { base := sampleSha '0', tip := sampleSha 'b' })) emptyWorld)
        = true := by
    decide +kernel
  have happens
      : ∀ look ∈ deliveredLooks (deliver range),
          ∀ world,
            Elapses key world (look.1 world)
            ∧ ∀ query, Truthful ceilingGit key world query (scripted key look.2 world query) := by
    intro look mem world
    rcases List.mem_cons.mp mem with rfl | mem
    · exact ⟨until_elapses key 1 world, fun query => ceilingAnswers_truthful _ key query world⟩
    · rcases List.mem_cons.mp mem with rfl | mem
      · exact ⟨until_elapses key 10000 world,
          fun query => ceilingAnswers_truthful _ key query world⟩
      · cases List.mem_singleton.mp mem
        exact ⟨deliver_elapses key range world,
          fun query => ceilingAnswers_truthful _ key query world⟩
  have answers
      : ∀ look ∈ deliveredLooks (deliver range),
          ∀ query world,
            let answer := scripted key look.2 world query
            true = true
            → (freely ceilingGit key).answers query world answer
              (world.after key query answer) := by
    intro look mem query world answer _
    exact ⟨rfl, (happens look mem world).2 query⟩
  obtain ⟨world, ticks, checked⟩ :=
    Ticks.scripted .start (fun look mem world => (happens look mem world).1) answers ran
  obtain ⟨moved, flags⟩ := Bool.and_eq_true_iff.mp checked
  obtain ⟨moves, delivered⟩ := Bool.and_eq_true_iff.mp moved
  refine ⟨world, ticks, { base := sampleSha 'a', tip := sampleSha 'b' }, ?_, ?_⟩
  · rw [of_decide_eq_true moves]
    exact List.mem_cons_self
  · rintro (reviewed | isEmpty | flagged)
    · rw [of_decide_eq_true delivered] at reviewed
      have bases := congrArg Range.base (List.mem_singleton.mp reviewed)
      exact absurd bases (by decide +kernel)
    · cases isEmpty
    · rw [of_decide_eq_true flags] at flagged
      cases flagged

end Controller
