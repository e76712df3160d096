import Myndaix.Controller.Looks

/-! What a look at a ref dispatches and what it leaves behind, told from what its probes have
answered: any probe may fail at any of its calls and succeed at another.
-/

namespace Controller

open Interaction Interaction.Program

abbrev History : Type :=
  List (Event Query Answer)

-- What the probes have found

def LinesFound (base commit : Sha) (lines : Nat) (history : History) : Prop :=
  ∃ numstat, ⟨.diffNumstat base commit, some numstat⟩ ∈ history ∧ diffLines numstat = lines

def BytesFound (base commit : Sha) (bytes : Nat) (history : History) : Prop :=
  ∃ patch, ⟨.diff base commit, some patch⟩ ∈ history ∧ diffBytes patch = bytes

/-- Some probe of the commit has failed. -/
def ProbeFailed (base commit : Sha) (history : History) : Prop :=
  ⟨.diffNumstat base commit, none⟩ ∈ history ∨ ⟨.diff base commit, none⟩ ∈ history

/-- A probe of the commit has failed and, tried again, has succeeded. -/
def Retried (base commit : Sha) (history : History) : Prop :=
  ∃ earlier later,
    history = earlier ++ later
    ∧ (⟨.diffNumstat base commit, none⟩ ∈ earlier ∧ (∃ lines, LinesFound base commit lines later)
      ∨ ⟨.diff base commit, none⟩ ∈ earlier ∧ ∃ bytes, BytesFound base commit bytes later)

/-- The commit was sized, in both dimensions. -/
structure SizedAs (base commit : Sha) (lines bytes : Nat) (history : History) : Prop where
  lines : LinesFound base commit lines history
  bytes : BytesFound base commit bytes history

def WithinBudgets (config : Config) (lines bytes : Nat) : Prop :=
  lines ≤ config.maxReviewLines ∧ bytes ≤ config.maxReviewBytes

/-- The commit was found to be over a budget. -/
def OverBudget (config : Config) (base commit : Sha) (history : History) : Prop :=
  (∃ lines, LinesFound base commit lines history ∧ config.maxReviewLines < lines)
  ∨ ∃ bytes, BytesFound base commit bytes history ∧ config.maxReviewBytes < bytes

/-- The commit was found to be over a budget or empty, or one of its probes has failed. -/
def Unfit (config : Config) (base commit : Sha) (history : History) : Prop :=
  ProbeFailed base commit history
  ∨ OverBudget config base commit history
  ∨ BytesFound base commit 0 history

/-- The first-parent commits from the base to the head. -/
def PathFound (base head : Sha) (commits : List Sha) (history : History) : Prop :=
  ∃ tokens, ⟨.revList base head, some tokens⟩ ∈ history ∧ tokens.filter isSha = commits

/-- The cursor and the head that a look has found. -/
structure Looked (base head : Sha) (history : History) : Prop where
  cursor : ∃ cursor : Cursor, ⟨.getCursor, some cursor⟩ ∈ history ∧ cursor.reviewedSha = base
  head : ⟨.revParse, some head⟩ ∈ history

/-- The target was sized and fits, and it is the head or, when the head is over a budget, the last
such commit among those that the chunker walks.
-/
structure Target (config : Config) (base head target : Sha) (history : History) : Prop where
  sized
    : ∃ lines bytes, SizedAs base target lines bytes history ∧ WithinBudgets config lines bytes
  last
    : target = head
      ∨ OverBudget config base head history
        ∧ ∃ commits earlier later,
            PathFound base head commits history
            ∧ commits.take config.chunkWalkCap = earlier ++ target :: later
            ∧ ∀ commit ∈ later, Unfit config base commit history

def Flagged (base commit : Sha) (history : History) : Prop :=
  ∃ lines bytes, ⟨.alertJefe (.rangeTooLarge base commit lines bytes), true⟩ ∈ history

/-- The reasons to leave a commit behind without a review. -/
inductive Passes (config : Config) (base head commit : Sha) (history : History) : Prop
  | quiet (same : commit = head) (quiet : ⟨.diffQuiet base head, true⟩ ∈ history)
  | empty (lines : Nat) (sized : SizedAs base commit lines 0 history)
  | oversize (lines bytes : Nat) (sized : SizedAs base commit lines bytes history)
    (isOver : ¬WithinBudgets config lines bytes) (flagged : Flagged base commit history)
  | noPath (same : commit = head) (none : PathFound base head [] history)
    (flagged : Flagged base commit history)

/-- One of the commit's probes has failed and then succeeded, and its sizes are within both budgets.
-/
structure FoundLate (config : Config) (base commit : Sha) (history : History) : Prop where
  retried : Retried base commit history
  sized
    : ∃ lines bytes, SizedAs base commit lines bytes history ∧ WithinBudgets config lines bytes

/-- What is dispatched is a target, and what is left behind has a reason, but for a commit that fits
and was found so too late.
-/
def Justified (config : Config) (history : History) : Query → Prop
  | .claimDispatch target _ =>
      ∃ base head, Looked base head history ∧ Target config base head target history
  | .playReview base target | .recordDispatch base target =>
      ∃ head, Looked base head history ∧ Target config base head target history
  | .skipTo commit =>
      ∃ base head,
        Looked base head history
        ∧ (FoundLate config base commit history ∨ Passes config base head commit history)
  | _ => True

section Growth

variable {config : Config} {base head commit target : Sha} {lines bytes : Nat}
  {history later : History}

theorem LinesFound.grow (found : LinesFound base commit lines history) (grown : history ⊆ later)
    : LinesFound base commit lines later := by
  obtain ⟨numstat, mem, same⟩ := found
  exact ⟨numstat, grown mem, same⟩

theorem BytesFound.grow (found : BytesFound base commit bytes history) (grown : history ⊆ later)
    : BytesFound base commit bytes later := by
  obtain ⟨patch, mem, same⟩ := found
  exact ⟨patch, grown mem, same⟩

theorem SizedAs.grow (sized : SizedAs base commit lines bytes history) (grown : history ⊆ later)
    : SizedAs base commit lines bytes later where
  lines := sized.lines.grow grown
  bytes := sized.bytes.grow grown

theorem ProbeFailed.grow (failed : ProbeFailed base commit history) (grown : history ⊆ later)
    : ProbeFailed base commit later :=
  failed.imp (fun mem => grown mem) (fun mem => grown mem)

theorem Retried.grow (retried : Retried base commit history) (new : History)
    : Retried base commit (history ++ new) := by
  obtain ⟨earlier, later, rfl, failed⟩ := retried
  have grown := List.subset_append_left later new
  refine ⟨earlier, later ++ new, List.append_assoc .., failed.imp ?_ ?_⟩
  · rintro ⟨mem, lines, found⟩
    exact ⟨mem, lines, found.grow grown⟩
  · rintro ⟨mem, bytes, found⟩
    exact ⟨mem, bytes, found.grow grown⟩

/-- What was tried again had failed. -/
theorem Retried.probeFailed (retried : Retried base commit history)
    : ProbeFailed base commit history := by
  obtain ⟨earlier, later, rfl, failed⟩ := retried
  exact failed.imp (fun failed => List.mem_append_left later failed.1)
    (fun failed => List.mem_append_left later failed.1)

/-- A late finding stays one. -/
theorem FoundLate.grow (late : FoundLate config base commit history) (new : History)
    : FoundLate config base commit (history ++ new) where
  retried := late.retried.grow new
  sized := by
    obtain ⟨lines, bytes, sized, within⟩ := late.sized
    exact ⟨lines, bytes, sized.grow (List.subset_append_left history new), within⟩

/-- A commit that is over a budget stays so. -/
theorem OverBudget.grow (isOver : OverBudget config base commit history) (grown : history ⊆ later)
    : OverBudget config base commit later := by
  rcases isOver with ⟨lines, found, oversize⟩ | ⟨bytes, found, oversize⟩
  · exact .inl ⟨lines, found.grow grown, oversize⟩
  · exact .inr ⟨bytes, found.grow grown, oversize⟩

theorem Unfit.grow (unfit : Unfit config base commit history) (grown : history ⊆ later)
    : Unfit config base commit later := by
  rcases unfit with failed | isOver | isEmpty
  · exact .inl (failed.grow grown)
  · exact .inr (.inl (isOver.grow grown))
  · exact .inr (.inr (isEmpty.grow grown))

theorem Looked.grow (looked : Looked base head history) (grown : history ⊆ later)
    : Looked base head later where
  cursor := by
    obtain ⟨cursor, mem, same⟩ := looked.cursor
    exact ⟨cursor, grown mem, same⟩
  head := grown looked.head

theorem PathFound.grow {commits : List Sha} (path : PathFound base head commits history)
    (grown : history ⊆ later)
    : PathFound base head commits later := by
  obtain ⟨tokens, mem, same⟩ := path
  exact ⟨tokens, grown mem, same⟩

theorem Target.grow (isTarget : Target config base head target history) (grown : history ⊆ later)
    : Target config base head target later where
  sized := by
    obtain ⟨lines, bytes, sized, within⟩ := isTarget.sized
    exact ⟨lines, bytes, sized.grow grown, within⟩
  last := by
    rcases isTarget.last with same | ⟨headOver, commits, earlier, after, path, split, unfit⟩
    · exact .inl same
    · exact .inr ⟨headOver.grow grown, commits, earlier, after, path.grow grown, split,
        fun commit mem => (unfit commit mem).grow grown⟩

end Growth

-- Sizing

/-- What is kept was found. -/
structure Memo.Sound (memo : Memo) (base : Sha) (history : History) : Prop where
  lines : ∀ commit lines, memo.lines commit = some lines → LinesFound base commit lines history
  bytes : ∀ commit bytes, memo.bytes commit = some bytes → BytesFound base commit bytes history

/-- The memo has grown by what was found. -/
structure Probed (base : Sha) (memo : Memo) (new : History) (after : Memo) : Prop where
  keepsLines : ∀ commit lines, memo.lines commit = some lines → after.lines commit = some lines
  keepsBytes : ∀ commit bytes, memo.bytes commit = some bytes → after.bytes commit = some bytes
  newLines
    : ∀ commit lines,
        after.lines commit = some lines
        → memo.lines commit = some lines ∨ LinesFound base commit lines new
  newBytes
    : ∀ commit bytes,
        after.bytes commit = some bytes
        → memo.bytes commit = some bytes ∨ BytesFound base commit bytes new

theorem Memo.Sound.empty (base : Sha) (history : History) : Memo.empty.Sound base history :=
  ⟨nofun, nofun⟩

section Sizing

variable {config : Config} {base head commit : Sha} {memo middle after : Memo}
  {history new more : History}

/-- The memo stays sound while the probes go on. -/
theorem Memo.Sound.grow (sound : memo.Sound base history) (probed : Probed base memo new after)
    : after.Sound base (history ++ new) where
  lines := by
    intro commit lines kept
    rcases probed.newLines commit lines kept with known | found
    · exact (sound.lines commit lines known).grow (List.subset_append_left history new)
    · exact found.grow (List.subset_append_right history new)
  bytes := by
    intro commit bytes kept
    rcases probed.newBytes commit bytes kept with known | found
    · exact (sound.bytes commit bytes known).grow (List.subset_append_left history new)
    · exact found.grow (List.subset_append_right history new)

/-- A memo stays as it is when nothing is found. -/
theorem Probed.refl (memo : Memo) (new : History) : Probed base memo new memo where
  keepsLines := fun _ _ kept => kept
  keepsBytes := fun _ _ kept => kept
  newLines := fun _ _ kept => .inl kept
  newBytes := fun _ _ kept => .inl kept

/-- Probes after probes. -/
theorem Probed.trans (first : Probed base memo new middle) (second : Probed base middle more after)
    : Probed base memo (new ++ more) after where
  keepsLines := fun commit lines kept =>
    second.keepsLines commit lines (first.keepsLines commit lines kept)
  keepsBytes := fun commit bytes kept =>
    second.keepsBytes commit bytes (first.keepsBytes commit bytes kept)
  newLines := by
    intro commit lines kept
    rcases second.newLines commit lines kept with earlier | found
    · exact (first.newLines commit lines earlier).imp_right
        fun found => found.grow (List.subset_append_left new more)
    · exact .inr (found.grow (List.subset_append_right new more))
  newBytes := by
    intro commit bytes kept
    rcases second.newBytes commit bytes kept with earlier | found
    · exact (first.newBytes commit bytes earlier).imp_right
        fun found => found.grow (List.subset_append_left new more)
    · exact .inr (found.grow (List.subset_append_right new more))

theorem Probed.addLines {numstat : List (Option Nat × Option Nat)}
    (unknown : memo.lines commit = none)
    : Probed base memo [⟨.diffNumstat base commit, some numstat⟩]
        (memo.addLines commit (diffLines numstat)) where
  keepsLines := by
    intro other lines kept
    have different : other ≠ commit := fun same => by simp [same, unknown] at kept
    simpa only [Memo.addLines, if_neg different] using kept
  keepsBytes := fun _ _ kept => kept
  newLines := by
    intro other lines kept
    simp only [Memo.addLines] at kept
    split at kept
    · rename_i same
      cases kept
      exact .inr ⟨numstat, same ▸ List.mem_cons_self, rfl⟩
    · exact .inl kept
  newBytes := fun _ _ kept => .inl kept

theorem Probed.addBytes {patch : Text.Bytes} (unknown : memo.bytes commit = none)
    : Probed base memo [⟨.diff base commit, some patch⟩]
        (memo.addBytes commit (diffBytes patch)) where
  keepsLines := fun _ _ kept => kept
  keepsBytes := by
    intro other bytes kept
    have different : other ≠ commit := fun same => by simp [same, unknown] at kept
    simpa only [Memo.addBytes, if_neg different] using kept
  newLines := fun _ _ kept => .inl kept
  newBytes := by
    intro other bytes kept
    simp only [Memo.addBytes] at kept
    split at kept
    · rename_i same
      cases kept
      exact .inr ⟨patch, same ▸ List.mem_cons_self, rfl⟩
    · exact .inl kept

/-- The calls of the chunker. -/
def Probing : Query → Prop
  | .diffNumstat _ _ | .diff _ _ | .revList _ _ => True
  | _ => False

/-- A contract over the history, for a program of such calls. -/
abbrev Finds {Result : Type} (program : Run Result) (post : Result → History → Prop)
    (history : History)
    : Prop :=
  program.Ensures (recording (fun _ => Probing)) post history

/-- The lines are found, or the probe has failed. -/
theorem sizeLines_finds
    : Finds (sizeLines base commit memo)
        (fun result later =>
          ∃ new,
            later = history ++ new ∧ Probed base memo new result.2
            ∧ match result.1 with
              | some lines => result.2.lines commit = some lines
              | none => result.2.lines commit = none ∧ ⟨.diffNumstat base commit, none⟩ ∈ later)
        history := by
  unfold sizeLines
  split
  · rename_i lines known
    exact .recorded ⟨[], (List.append_nil history).symm, .refl memo [], known⟩
  · rename_i unknown
    refine .records trivial fun numstat => ?_
    match numstat with
    | some numstat => exact .recorded ⟨_, rfl, .addLines unknown, if_pos rfl⟩
    | none =>
        exact .recorded
          ⟨_, rfl, .refl memo _, unknown, List.mem_append_right history List.mem_cons_self⟩

/-- So are the bytes. -/
theorem sizeBytes_finds
    : Finds (sizeBytes base commit memo)
        (fun result later =>
          ∃ new,
            later = history ++ new ∧ Probed base memo new result.2
            ∧ match result.1 with
              | some bytes => result.2.bytes commit = some bytes
              | none => result.2.bytes commit = none ∧ ⟨.diff base commit, none⟩ ∈ later)
        history := by
  unfold sizeBytes
  split
  · rename_i bytes known
    exact .recorded ⟨[], (List.append_nil history).symm, .refl memo [], known⟩
  · rename_i unknown
    refine .records trivial fun patch => ?_
    match patch with
    | some patch => exact .recorded ⟨_, rfl, .addBytes unknown, if_pos rfl⟩
    | none =>
        exact .recorded
          ⟨_, rfl, .refl memo _, unknown, List.mem_append_right history List.mem_cons_self⟩

end Sizing

-- Walking

/-- As `Unfit`, of the sizes that are kept. -/
inductive Memo.Excludes (config : Config) (base commit : Sha) (memo : Memo)
    (history : History) : Prop
  | retried (retried : Retried base commit history)
  | noLines (unknown : memo.lines commit = none)
  (failed : ⟨.diffNumstat base commit, none⟩ ∈ history)
  | noBytes (unknown : memo.bytes commit = none) (failed : ⟨.diff base commit, none⟩ ∈ history)
  | lines (lines : Nat) (kept : memo.lines commit = some lines)
    (isOver : config.maxReviewLines < lines)
  | bytes (bytes : Nat) (kept : memo.bytes commit = some bytes)
    (isOver : bytes = 0 ∨ config.maxReviewBytes < bytes)

/-- A commit that was sized and fits. -/
structure Sized.Fits (config : Config) (base : Sha) (found : Sized) (history : History) : Prop where
  sized : SizedAs base found.sha found.lines found.bytes history
  within : WithinBudgets config found.lines found.bytes

/-- The last of the commits seen so far that fits, if any does. -/
def Best (config : Config) (base head : Sha) (seen : List Sha) (memo : Memo) (history : History)
    : Option Sized → Prop
  | none => ∀ commit ∈ seen, commit ≠ head → memo.Excludes config base commit history
  | some found =>
      found.Fits config base history
      ∧ ∃ earlier later,
          seen = earlier ++ found.sha :: later
          ∧ ∀ commit ∈ later, commit ≠ head → memo.Excludes config base commit history

section Walking

variable {config : Config} {base head commit : Sha} {memo after : Memo}
  {history new : History} {seen : List Sha} {best : Option Sized}

theorem Memo.Excludes.grow (excludes : memo.Excludes config base commit history)
    (probed : Probed base memo new after)
    : after.Excludes config base commit (history ++ new) := by
  cases excludes with
  | retried retried => exact .retried (retried.grow new)
  | noLines unknown failed =>
      cases known : after.lines commit with
      | none => exact .noLines known (List.mem_append_left new failed)
      | some lines =>
          have found := (probed.newLines commit lines known).resolve_left (by simp [unknown])
          exact .retried ⟨history, new, rfl, .inl ⟨failed, lines, found⟩⟩
  | noBytes unknown failed =>
      cases known : after.bytes commit with
      | none => exact .noBytes known (List.mem_append_left new failed)
      | some bytes =>
          have found := (probed.newBytes commit bytes known).resolve_left (by simp [unknown])
          exact .retried ⟨history, new, rfl, .inr ⟨failed, bytes, found⟩⟩
  | lines lines kept isOver => exact .lines lines (probed.keepsLines commit lines kept) isOver
  | bytes bytes kept isOver => exact .bytes bytes (probed.keepsBytes commit bytes kept) isOver

/-- What the memo excludes is unfit. -/
theorem Memo.Excludes.unfit (excludes : memo.Excludes config base commit history)
    (sound : memo.Sound base history)
    : Unfit config base commit history := by
  cases excludes with
  | retried retried => exact .inl retried.probeFailed
  | noLines unknown failed => exact .inl (.inl failed)
  | noBytes unknown failed => exact .inl (.inr failed)
  | lines lines kept isOver =>
      exact .inr (.inl (.inl ⟨lines, sound.lines commit lines kept, isOver⟩))
  | bytes bytes kept excluded =>
      have found := sound.bytes commit bytes kept
      rcases excluded with rfl | isOver
      · exact .inr (.inr found)
      · exact .inr (.inl (.inr ⟨bytes, found, isOver⟩))

theorem Sized.Fits.grow {found : Sized} (fits : found.Fits config base history) (new : History)
    : found.Fits config base (history ++ new) where
  sized := fits.sized.grow (List.subset_append_left history new)
  within := fits.within

/-- A commit is a candidate if it fits, and unfit otherwise. -/
theorem candidate_finds (sound : memo.Sound base history)
    : Finds (candidate config base commit memo)
        (fun result later =>
          ∃ new,
            later = history ++ new ∧ Probed base memo new result.2
            ∧ match result.1 with
              | some found => found.sha = commit ∧ found.Fits config base later
              | none => result.2.Excludes config base commit later)
        history := by
  refine Ensures.bind sizeLines_finds ?_
  rintro ⟨lines, middle⟩ between ⟨new, rfl, probed, found⟩
  match lines with
  | none => exact .recorded ⟨new, rfl, probed, .noLines found.1 found.2⟩
  | some lines =>
      dsimp only at found ⊢
      split
      · rename_i isOver
        exact .recorded ⟨new, rfl, probed, .lines lines found isOver⟩
      · rename_i fewLines
        refine Ensures.bind sizeBytes_finds ?_
        rintro ⟨bytes, after⟩ later ⟨more, rfl, probedAgain, foundBytes⟩
        have both := probed.trans probedAgain
        have sound := sound.grow both
        rw [List.append_assoc] at foundBytes ⊢
        match bytes with
        | none => exact .recorded ⟨_, rfl, both, .noBytes foundBytes.1 foundBytes.2⟩
        | some bytes =>
            dsimp only at foundBytes ⊢
            split
            · rename_i isOver
              exact .recorded ⟨_, rfl, both, .bytes bytes foundBytes isOver⟩
            · rename_i fits
              have foundLines := probedAgain.keepsLines commit lines found
              have sized : SizedAs base commit lines bytes (history ++ (new ++ more)) :=
                {
                  lines := sound.lines commit lines foundLines
                  bytes := sound.bytes commit bytes foundBytes
                }
              have within : WithinBudgets config lines bytes :=
                ⟨Nat.le_of_not_lt fewLines, Nat.le_of_not_lt (not_or.mp fits).2⟩
              exact .recorded ⟨_, rfl, both, rfl, sized, within⟩

/-- A commit that is no candidate leaves the best one as it was. -/
theorem Best.skip (isBest : Best config base head seen memo history best)
    (probed : Probed base memo new after)
    (excluded : commit ≠ head → after.Excludes config base commit (history ++ new))
    : Best config base head (seen ++ [commit]) after (history ++ new) best := by
  have excludes {commits : List Sha}
      (before : ∀ other ∈ commits, other ≠ head → memo.Excludes config base other history)
      : ∀ other ∈ commits ++ [commit],
          other ≠ head → after.Excludes config base other (history ++ new) := by
    intro other mem different
    rcases List.mem_append.mp mem with earlier | isLast
    · exact (before other earlier different).grow probed
    · cases List.mem_singleton.mp isLast
      exact excluded different
  match best with
  | none => exact excludes isBest
  | some found =>
      obtain ⟨fits, earlier, later, split, unfit⟩ := isBest
      refine ⟨fits.grow new, earlier, later ++ [commit], ?_, excludes unfit⟩
      rw [split, List.append_assoc, List.cons_append]

/-- The best commit of those seen so far and of the rest, by induction on the rest. -/
theorem walk_finds {commits : List Sha} (sound : memo.Sound base history)
    (isBest : Best config base head seen memo history best)
    : Finds (walk config base head commits best memo)
        (fun result later =>
          ∃ new,
            later = history ++ new ∧ Probed base memo new result.2
            ∧ Best config base head (seen ++ commits) result.2 later result.1)
        history := by
  induction commits generalizing seen best memo history with
  | nil =>
      rw [List.append_nil]
      exact .recorded ⟨[], (List.append_nil history).symm, .refl memo [], isBest⟩
  | cons commit commits ih =>
      rw [List.append_cons]
      unfold walk
      split
      · rename_i same
        have skipped := isBest.skip (.refl memo []) fun different => absurd same different
        rw [List.append_nil] at skipped
        exact ih sound skipped
      · refine Ensures.bind (candidate_finds sound) ?_
        rintro ⟨found, middle⟩ between ⟨new, rfl, probed, known⟩
        have further {next : Option Sized}
            (isBest : Best config base head (seen ++ [commit]) middle (history ++ new) next)
            : Finds (walk config base head commits next middle)
                (fun result later =>
                  ∃ new,
                    later = history ++ new ∧ Probed base memo new result.2
                    ∧ Best config base head (seen ++ [commit] ++ commits) result.2 later result.1)
                (history ++ new) := by
          refine (ih (sound.grow probed) isBest).weaken ?_
          rintro result later ⟨more, rfl, probedAgain, isBest⟩
          exact ⟨new ++ more, List.append_assoc .., probed.trans probedAgain, isBest⟩
        match found with
        | none => exact further (isBest.skip probed fun _ => known)
        | some found =>
            obtain ⟨rfl, fits⟩ := known
            exact further ⟨fits, seen, [], rfl, nofun⟩

end Walking

-- Choosing

/-- Why the chunker chooses to leave a commit behind. -/
inductive Leaves (config : Config) (base head : Sha) (choice : Choice) (history : History) : Prop
  | late (late : FoundLate config base choice.sha history)
  | empty (lines : Nat) (sized : SizedAs base choice.sha lines 0 history)
  | oversize (lines bytes : Nat) (sized : SizedAs base choice.sha lines bytes history)
    (isOver : ¬WithinBudgets config lines bytes) (oversized : choice.oversized config = true)
  | noPath (same : choice.sha = head) (none : PathFound base head [] history)
    (oversized : choice.oversized config = true)

/-- What the chunker has found out about its choice. -/
def Chosen (config : Config) (base head : Sha) (choice : Choice) (history : History) : Prop :=
  match choice.mode with
  | .dispatch => Target config base head choice.sha history
  | .advance => Leaves config base head choice history
  | .defer => True

/-- The sizes of the whole range, which is over a budget. -/
structure RangeOver (config : Config) (head : Sha) (memo : Memo) (totalLines totalBytes : Int)
    : Prop where
  lines : ∃ lines : Nat, memo.lines head = some lines ∧ totalLines = lines
  bytes
    : (∃ lines bytes : Nat,
        memo.lines head = some lines ∧ memo.bytes head = some bytes ∧ totalBytes = bytes
        ∧ ¬WithinBudgets config lines bytes)
      ∨ totalBytes = -1 ∧
        ∃ lines : Nat, memo.lines head = some lines ∧ config.maxReviewLines < lines

section Choosing

variable {config : Config} {base head first : Sha} {memo : Memo} {history : History}
  {totalLines totalBytes : Int}

/-- A choice is oversized if a size is over its budget. -/
theorem oversized_iff {choice : Choice} {lines bytes : Nat} (sameLines : choice.lines = lines)
    (sameBytes : choice.bytes = bytes)
    : choice.oversized config = true ↔ ¬WithinBudgets config lines bytes := by
  rw [Choice.oversized, decide_eq_true_iff, WithinBudgets, sameLines, sameBytes]
  omega

/-- A range over a budget makes its choice oversized. -/
theorem RangeOver.oversized (oversize : RangeOver config head memo totalLines totalBytes)
    {choice : Choice} (sameLines : choice.lines = totalLines)
    (sameBytes : choice.bytes = totalBytes)
    : choice.oversized config = true := by
  obtain ⟨lines, keptLines, totalIs⟩ := oversize.lines
  rcases oversize.bytes with ⟨other, bytes, kept, _, bytesAre, isOver⟩ | ⟨unknown, _⟩
  · obtain rfl : lines = other := Option.some.inj (keptLines.symm.trans kept)
    exact (oversized_iff (sameLines.trans totalIs) (sameBytes.trans bytesAre)).mpr isOver
  · rw [Choice.oversized, decide_eq_true_iff, sameBytes, unknown]
    omega

/-- One of the kept sizes is over its budget. -/
theorem RangeOver.exceeds (oversize : RangeOver config head memo totalLines totalBytes)
    : (∃ lines, memo.lines head = some lines ∧ config.maxReviewLines < lines)
      ∨ ∃ bytes, memo.bytes head = some bytes ∧ config.maxReviewBytes < bytes := by
  rcases oversize.bytes with ⟨lines, bytes, keptLines, keptBytes, _, isOver⟩ |
    ⟨_, lines, kept, isOver⟩
  · by_cases fewLines : lines ≤ config.maxReviewLines
    · have manyBytes : config.maxReviewBytes < bytes :=
        Nat.lt_of_not_le fun few => isOver ⟨fewLines, few⟩
      exact .inr ⟨bytes, keptBytes, manyBytes⟩
    · exact .inl ⟨lines, keptLines, Nat.lt_of_not_le fewLines⟩
  · exact .inl ⟨lines, kept, isOver⟩

/-- The whole range was found to be over a budget. -/
theorem RangeOver.found (oversize : RangeOver config head memo totalLines totalBytes)
    (sound : memo.Sound base history)
    : OverBudget config base head history :=
  oversize.exceeds.imp
    (fun ⟨lines, kept, isOver⟩ => ⟨lines, sound.lines head lines kept, isOver⟩)
    (fun ⟨bytes, kept, isOver⟩ => ⟨bytes, sound.bytes head bytes kept, isOver⟩)

/-- The head of a range that is over a budget is no candidate. -/
theorem RangeOver.excludes (oversize : RangeOver config head memo totalLines totalBytes)
    : memo.Excludes config base head history := by
  rcases oversize.exceeds with ⟨lines, kept, isOver⟩ | ⟨bytes, kept, isOver⟩
  · exact .lines lines kept isOver
  · exact .bytes bytes kept (.inr isOver)

/-- If no commit fits, the first one was walked. -/
theorem Best.excludesFirst {commits : List Sha}
    (isBest
      : Best config base head ((first :: commits).take config.chunkWalkCap) memo history none)
    (excludesHead : memo.Excludes config base head history)
    : memo.Excludes config base first history := by
  obtain ⟨cap, isCap⟩ := Nat.exists_eq_add_one.mpr config.positiveWalk
  rw [isCap, List.take_succ_cons] at isBest
  by_cases same : first = head
  · exact same ▸ excludesHead
  · exact isBest first List.mem_cons_self same

/-- A commit that was excluded is left behind for a reason, or one of its probes was retried. -/
theorem firstCommit_finds (head : Sha) (sound : memo.Sound base history)
    (excluded : memo.Excludes config base first history)
    : Finds (firstCommit base first memo)
        (fun choice later =>
          (∃ new, later = history ++ new) ∧ Chosen config base head choice later)
        history := by
  refine Ensures.bind sizeLines_finds ?_
  rintro ⟨lines, middle⟩ between ⟨new, rfl, probed, foundLines⟩
  refine Ensures.bind sizeBytes_finds ?_
  rintro ⟨bytes, after⟩ later ⟨more, rfl, probedAgain, foundBytes⟩
  have both := probed.trans probedAgain
  have sound := sound.grow both
  have excluded := excluded.grow both
  rw [List.append_assoc] at foundBytes ⊢
  match lines, bytes with
  | none, _ => exact .recorded ⟨⟨_, rfl⟩, trivial⟩
  | some lines, none => exact .recorded ⟨⟨_, rfl⟩, trivial⟩
  | some lines, some bytes =>
      have keptLines := probedAgain.keepsLines first lines foundLines
      have sized : SizedAs base first lines bytes (history ++ (new ++ more)) :=
        { lines := sound.lines first lines keptLines, bytes := sound.bytes first bytes foundBytes }
      dsimp only
      split
      · rename_i isEmpty
        exact .recorded ⟨⟨_, rfl⟩, .empty lines (isEmpty ▸ sized)⟩
      · rename_i nonempty
        refine .recorded ⟨⟨_, rfl⟩, ?_⟩
        let choice : Choice := { mode := .advance, sha := first, lines, bytes }
        by_cases within : WithinBudgets config lines bytes
        · -- The walk has left out a commit that fits: a probe failed there.
          refine .late ⟨?_, lines, bytes, sized, within⟩
          cases excluded with
          | retried retried => exact retried
          | noLines unknown failed => exact nomatch unknown.symm.trans keptLines
          | noBytes unknown failed => exact nomatch unknown.symm.trans foundBytes
          | lines known kept isOver =>
              obtain rfl : lines = known := Option.some.inj (keptLines.symm.trans kept)
              exact absurd within.1 (Nat.not_le_of_lt isOver)
          | bytes known kept isOver =>
              obtain rfl : bytes = known := Option.some.inj (foundBytes.symm.trans kept)
              exact absurd within.2 (Nat.not_le_of_lt (isOver.resolve_left nonempty))
        · exact .oversize lines bytes sized within
            ((@oversized_iff config choice _ _ rfl rfl).mpr within)

/-- The choice among the commits of the range. -/
theorem chooseCommit_finds (sound : memo.Sound base history)
    (oversize : RangeOver config head memo totalLines totalBytes)
    : Finds (chooseCommit config base head totalLines totalBytes memo)
        (fun choice later =>
          (∃ new, later = history ++ new) ∧ Chosen config base head choice later)
        history := by
  refine .records trivial fun tokens => ?_
  match tokens with
  | none => exact .recorded ⟨⟨_, rfl⟩, trivial⟩
  | some tokens =>
      have asked
          : (⟨.revList base head, some tokens⟩ : Event Query Answer)
            ∈ history ++ [⟨.revList base head, some tokens⟩] :=
        List.mem_append_right history List.mem_cons_self
      dsimp only
      split
      · rename_i noCommits
        exact .recorded
          ⟨⟨_, rfl⟩, .noPath rfl ⟨tokens, asked, noCommits⟩ (oversize.oversized rfl rfl)⟩
      · rename_i first commits isPath
        have sound : memo.Sound base (history ++ [⟨.revList base head, some tokens⟩]) :=
          sound.grow (.refl memo _)
        have excludesHead
            : memo.Excludes config base head (history ++ [⟨.revList base head, some tokens⟩]) :=
          oversize.excludes
        have headOver
            : OverBudget config base head (history ++ [⟨.revList base head, some tokens⟩]) :=
          oversize.found sound
        refine Ensures.bind (walk_finds sound (nofun : Best config base head [] memo _ none)) ?_
        rintro ⟨best, after⟩ later ⟨new, rfl, probed, isBest⟩
        rw [List.nil_append] at isBest
        have sound := sound.grow probed
        have excludesHead := excludesHead.grow probed
        match best with
        | some found =>
            obtain ⟨fits, earlier, rest, split, excludes⟩ := isBest
            refine .recorded ⟨⟨_, List.append_assoc ..⟩,
              ⟨_, _, fits.sized, fits.within⟩,
              .inr ⟨headOver.grow (List.subset_append_left _ new), ?_⟩⟩
            refine ⟨first :: commits, earlier, rest, ?_, split, fun commit mem => ?_⟩
            · exact ⟨tokens, List.mem_append_left new asked, isPath⟩
            · by_cases same : commit = head
              · exact same ▸ excludesHead.unfit sound
              · exact (excludes commit mem same).unfit sound
        | none =>
            have excluded := isBest.excludesFirst excludesHead
            refine (firstCommit_finds head sound excluded).weaken ?_
            rintro choice last ⟨⟨more, rfl⟩, chosen⟩
            refine ⟨⟨[⟨.revList base head, some tokens⟩] ++ new ++ more, ?_⟩, chosen⟩
            simp only [List.append_assoc]

/-- The choice of the target. -/
theorem chooseReviewTarget_finds (config : Config) (base head : Sha) (history : History)
    : Finds (chooseReviewTarget config base head)
        (fun choice later =>
          (∃ new, later = history ++ new) ∧ Chosen config base head choice later)
        history := by
  refine Ensures.bind sizeLines_finds ?_
  rintro ⟨lines, middle⟩ between ⟨new, rfl, probed, foundLines⟩
  match lines with
  | none => exact .recorded ⟨⟨new, rfl⟩, trivial⟩
  | some lines =>
      refine Ensures.bind sizeBytes_finds ?_
      rintro ⟨bytes, after⟩ later ⟨more, rfl, probedAgain, foundBytes⟩
      have sound := (Memo.Sound.empty base history).grow (probed.trans probedAgain)
      have keptLines := probedAgain.keepsLines head lines foundLines
      rw [List.append_assoc] at foundBytes ⊢
      have further {totalBytes : Int} (oversize : RangeOver config head after lines totalBytes)
          : Finds (chooseCommit config base head lines totalBytes after)
              (fun choice later =>
                (∃ new, later = history ++ new) ∧ Chosen config base head choice later)
              (history ++ (new ++ more)) := by
        refine (chooseCommit_finds sound oversize).weaken ?_
        rintro choice last ⟨⟨rest, rfl⟩, chosen⟩
        exact ⟨⟨_, List.append_assoc ..⟩, chosen⟩
      match bytes with
      | some bytes =>
          dsimp only
          split
          · rename_i within
            have sized : SizedAs base head lines bytes (history ++ (new ++ more)) :=
              { lines := sound.lines head lines keptLines,
                bytes := sound.bytes head bytes foundBytes }
            exact .recorded ⟨⟨_, rfl⟩, ⟨lines, bytes, sized, within⟩, .inl rfl⟩
          · rename_i isOver
            exact further ⟨⟨lines, keptLines, rfl⟩,
              .inl ⟨lines, bytes, keptLines, foundBytes, rfl, isOver⟩⟩
      | none =>
          dsimp only
          split
          · exact .recorded ⟨⟨_, rfl⟩, trivial⟩
          · rename_i isOver
            exact further ⟨⟨lines, keptLines, rfl⟩,
              .inr ⟨rfl, lines, keptLines, Nat.lt_of_not_le isOver⟩⟩

end Choosing

-- The whole look

/-- The calls that need no reason. -/
def Plain : Query → Prop
  | .claimDispatch _ _ | .playReview _ _ | .recordDispatch _ _ | .skipTo _ => False
  | _ => True

variable {query : Query}

section Looking

variable {config : Config} {base head target : Sha} {choice : Choice} {history : History}

theorem Leaves.grow (leaves : Leaves config base head choice history) (new : History)
    : Leaves config base head choice (history ++ new) := by
  have grown := List.subset_append_left history new
  cases leaves with
  | late late => exact .late (late.grow new)
  | empty lines sized => exact .empty lines (sized.grow grown)
  | oversize lines bytes sized isOver oversized =>
      exact .oversize lines bytes (sized.grow grown) isOver oversized
  | noPath same none oversized => exact .noPath same (none.grow grown) oversized

theorem Passes.grow (passes : Passes config base head target history) (new : History)
    : Passes config base head target (history ++ new) := by
  have grown := List.subset_append_left history new
  have flagged (flagged : Flagged base target history) : Flagged base target (history ++ new) := by
    obtain ⟨lines, bytes, mem⟩ := flagged
    exact ⟨lines, bytes, grown mem⟩
  cases passes with
  | quiet same quiet => exact .quiet same (grown quiet)
  | empty lines sized => exact .empty lines (sized.grow grown)
  | oversize lines bytes sized isOver isFlagged =>
      exact .oversize lines bytes (sized.grow grown) isOver (flagged isFlagged)
  | noPath same none isFlagged => exact .noPath same (none.grow grown) (flagged isFlagged)

theorem Chosen.grow (chosen : Chosen config base head choice history) (new : History)
    : Chosen config base head choice (history ++ new) := by
  unfold Chosen at *
  split
  · rename_i dispatches
    rw [dispatches] at chosen
    exact Target.grow chosen (List.subset_append_left history new)
  · rename_i advances
    rw [advances] at chosen
    exact Leaves.grow chosen new
  · trivial

/-- The reasons for a commit that was flagged, or did not have to be. -/
theorem Leaves.passes (leaves : Leaves config base head choice history)
    (flagged : choice.oversized config = true → Flagged base choice.sha history)
    : FoundLate config base choice.sha history
      ∨ Passes config base head choice.sha history := by
  cases leaves with
  | late late => exact .inl late
  | empty lines sized => exact .inr (.empty lines sized)
  | oversize lines bytes sized isOver oversized =>
      exact .inr (.oversize lines bytes sized isOver (flagged oversized))
  | noPath same none oversized => exact .inr (.noPath same none (flagged oversized))

/-- What was once found stays found. -/
theorem steady {quiet : Query → Prop} {holds : History → Prop}
    (grow : ∀ history event, holds history → holds (history ++ [event]))
    (allowed : ∀ history query, quiet query → holds history → Justified config history query)
    : Steady (recording (Justified config)) quiet holds where
  stable := by
    intro history later here same
    exact same ▸ here
  permits := by
    intro history query isQuiet here
    exact allowed history query isQuiet here
  step := by
    intro query history answer later isQuiet here answered
    exact answered ▸ grow history ⟨query, answer⟩ here

theorem Probing.plain (isProbe : Probing query) : Plain query := by
  cases query <;> first | exact isProbe.elim | trivial

theorem Neutral.plain (neutral : Neutral query) : Plain query := by
  cases query <;> first | exact neutral.elim | trivial

section Lasting

variable {cursor : Option Cursor} {row : Cursor} {pending : Sha}

end Lasting

end Looking

def sampleSha (digit : Char) : Sha :=
  String.ofList (List.replicate 40 digit)

/-- The chunker walks one commit only. -/
def sampleConfig : Config where
  maxDispatchPerTick := 3
  maxDispatchPerDay := 20
  maxAttempts := 3
  transientAlertStreak := 3
  deferAlertStreak := 3
  pendingStale := 7200
  maxReviewLines := 10
  maxReviewBytes := 1000
  chunkWalkCap := 1
  dryRun := false
  testMode := false
  dispatchOverride := false
  positiveLines := by decide
  positiveBytes := by decide
  positiveWalk := by decide

def sampleCursor : Cursor where
  repoId := "repo"
  ref := "refs/heads/main"
  baselineSha := sampleSha '0'
  reviewedSha := sampleSha '0'
  pendingSha := none
  state := .baseline
  attempts := 0
  updatedAt := 1

/-- Three commits after the reviewed one: two small ones and one that is over a budget. -/
def sampleAnswers : (query : Query) → Answer query
  | .getCursor => some sampleCursor
  | .upsertBaseline _ | .claimDispatch _ _ | .releaseDispatch _ | .forgiveTransient _
  | .advanceCursor _ | .skipTo _ | .markBlocked _ _ => true
  | .doneExists _ | .diffQuiet _ _ => false
  | .unlinkTransient _ | .alertJefe _ | .fetch | .pin _ _ | .catFile _ | .trustedScript => true
  | .readTransient _ => .absent
  | .readStreak _ | .readDay _ => none
  | .writeStreak _ _ | .unlinkStreak _ | .writeDay _ _ | .indexSkills | .recordDispatch _ _ => ()
  | .utcDay => 0
  | .now => 10000
  | .remoteUrl => some "https://host/repo"
  | .revParse => some (sampleSha 'c')
  | .diffNumstat _ commit => some [(some (if commit = sampleSha 'c' then 100 else 1), some 0)]
  | .diff _ _ => some [65]
  | .revList _ _ => some [sampleSha 'a', sampleSha 'b', sampleSha 'c']
  | .playReview _ _ => some 0

end Controller
