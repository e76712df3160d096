import Myndaix.Automerge.Panels

/-! Shadow mode: it never merges, and where every panel passes and the shadow marks can be made,
each head is reviewed once and nothing is recorded because of it.
-/

namespace Automerge

open Interaction Interaction.Program Text

variable {config : Config} {repo : Repo} {markable : Bool} {prs : List PullRequest}
  {pr : PullRequest} {base : Str} {budget : Nat} {desk : Desk}

-- No merges

/-- A call that merges nothing. -/
def Peaceful : Query → Prop
  | .mergePut _ _ | .recordOverride _ _ _ => False
  | _ => True

/-- The world of the ticks, whatever is answered, where nothing is to be merged. -/
abbrev unmerging (config : Config) (repo : Repo) (markable : Bool) : Setting Query Answer Desk :=
  panelWorld config repo markable (fun _ _ _ => True) (fun desk => desk.merges = [])

variable {query : Query}

theorem Peaceful.merges (peaceful : Peaceful query) {before after : Desk} {answer : Answer query}
    (served : serves config repo markable query before answer after)
    : after.merges = before.merges := by
  have booked : before.book.merges = before.merges := by
    obtain ⟨_, same, _⟩ := before.book_eq
    rw [same]
  cases query with
  | mergePut | recordOverride => exact peaceful.elim
  | loadRepo => exact served.2 ▸ rfl
  | prList => exact (show after = _ from served) ▸ rfl
  | automergeDecision => exact served.2 ▸ rfl
  | shadowExists => exact served.2 ▸ rfl
  | shadowTouch => exact served.2 ▸ rfl
  | playReview => exact (show after = _ from served) ▸ rfl
  | recordAutomerge => exact (show after = _ from served) ▸ booked
  | readCounter counter =>
      cases counter with
      | attempts number head => exact served.2 ▸ rfl
      | day | author => exact (show after = before from served) ▸ rfl
  | writeCounter counter value =>
      cases counter with
      | attempts number head =>
          obtain ⟨left, _, _, rfl⟩ := served
          split
          · exact booked
          · exact booked
      | day | author => exact (show after = before.book from served) ▸ booked
  | _ => exact (show after = before from served) ▸ rfl

theorem peaceful_steady
    : Steady (unmerging config repo markable) Peaceful (fun desk => desk.merges = []) where
  stable := fun unmerged same => same ▸ unmerged
  permits := fun _ unmerged => unmerged
  step := fun peaceful unmerged answered => (peaceful.merges answered.1).trans unmerged

theorem reviewStep_peaceful (shadow : config.shadowCode = true)
    : Asks Peaceful (reviewStep config pr base budget) := by
  have reviews : Asks Peaceful (reviewPass config base pr.headRefOid) :=
    reviewPass_asks trivial trivial (fun _ => trivial) trivial
  refine Ensures.bind reviews fun verdict later _ => ?_
  split
  · have bumps : Asks Peaceful (bumpAttempt pr.number pr.headRefOid) :=
      bumpAttempt_asks trivial trivial fun _ => trivial
    refine Ensures.bind bumps fun attempts later _ => ?_
    split
    · exact Ensures.returns trivial
    · exact Ensures.returns trivial
  · split
    · exact Ensures.returns trivial
    · unfold mergeStep
      rw [if_pos (config.shadowIsDry shadow), if_pos shadow]
      exact Ensures.asks trivial fun _ => Ensures.returns trivial

theorem boundsStep_peaceful (shadow : config.shadowCode = true)
    : Asks Peaceful (boundsStep config pr base budget) := by
  unfold boundsStep
  split
  · exact .returns trivial
  · simp only [config.shadowIsDry shadow, if_true]
    refine .asks trivial fun marked => ?_
    split
    · exact .returns trivial
    · exact reviewStep_peaceful shadow

/-- At every stage of a tick, nothing was merged. -/
def unmerged : Stages Desk where
  sound := fun _ desk => desk.merges = []
  opened := fun _ _ desk => desk.merges = []
  judged := fun _ _ _ desk => desk.merges = []

theorem Preliminary.peaceful (preliminary : Preliminary query)
    : Peaceful query := by
  cases query <;> first | exact preliminary.elim | trivial

theorem Starting.peaceful (starting : Starting query) : Peaceful query := by
  cases query <;> first | exact starting.elim | trivial

theorem unmerged_kept (shadow : config.shadowCode = true)
    : unmerged.Kept (unmerging config repo markable) config repo where
  starts := peaceful_steady.fewer Starting.peaceful
  loads := fun _ answered => answered.1.1 _ rfl
  between := peaceful_steady.fewer False.elim
  judges := peaceful_steady.fewer False.elim
  lists := fun sound =>
    ⟨sound, fun answered =>
      peaceful_steady.step (show Peaceful .prList from trivial) sound answered⟩
  looks := fun _ sound => by
    refine ⟨sound, fun {prior after} answered => ?_⟩
    have still :=
      peaceful_steady.step (show Peaceful (.automergeDecision _ _ _) from trivial) sound answered
    split
    · exact still
    · exact still
  opens := fun {prs pr budget} _ =>
    {
      steady := peaceful_steady.fewer Preliminary.peaceful
      ends := fun _ _ opened => opened
      bounds := fun base _ opened =>
        (peaceful_steady.runs (boundsStep_peaceful shadow) opened).weaken fun _ _ both => both.2
    }
  defers := fun judged _ => judged
  records := fun judged _ =>
    ⟨judged, fun answered =>
      peaceful_steady.step (show Peaceful (.recordAutomerge _ _ _ _) from trivial) judged answered⟩
  ends := fun sound => sound

-- One review for each head

/-- Every panel that is started passes. -/
def Passes : (query : Query) → Desk → Answer query → Prop
  | .playReview _ _ _, _, rc => rc = some 0
  | .readVerdict, desk, answer =>
      ∀ panel, desk.paid = some panel → ∃ verdict, answer = some verdict ∧ panel.passes verdict
  | _, _, _ => True

/-- No head had two panels, one that had a panel has its shadow mark, and nothing was recorded for a
panel.
-/
structure Discreet (desk : Desk) : Prop where
  once : ∀ number head, desk.panelsOf number head ≤ 1
  marked
    : ∀ number head,
        ¬desk.Owes number head
        → desk.marked number (head.take 16) = false
        → desk.panelsOf number head = 0
  unbooked : desk.booked = []

/-- The world of the ticks in which every panel passes. -/
abbrev passing (config : Config) (repo : Repo) (markable : Bool) : Setting Query Answer Desk :=
  panelWorld config repo markable Passes Discreet

/-- The stages of a tick in shadow mode: whatever was paid for is marked at once. -/
def shadowing : Stages Desk where
  sound := fun _ desk => Discreet desk ∧ desk.paid = none
  opened := fun _ pr desk => (Discreet desk ∧ desk.paid = none) ∧ desk.current = pr.number
  judged := fun _ _ _ desk => Discreet desk ∧ desk.paid = none

theorem Discreet.ignores {booked : List (Nat × Str)} {merges : List Nat} (discreet : Discreet desk)
    (unbooked : booked = desk.booked)
    : Discreet { desk with booked, merges } :=
  ⟨discreet.once, discreet.marked, unbooked.trans discreet.unbooked⟩

theorem calm_discreet
    : Steady (passing config repo markable) Calm
        (fun desk => Discreet desk ∧ desk.paid = none) :=
  calm_steady (fun unbooked here => ⟨here.1.ignores (unbooked here.2), here.2⟩) fun here => here.1

theorem calm_opened
    : Steady (passing config repo markable) Calm (shadowing.opened prs pr) :=
  calm_steady (fun unbooked here => ⟨⟨here.1.1.ignores (unbooked here.1.2), here.1.2⟩, here.2⟩)
    fun here => here.1.1

theorem Desk.book_settled (settled : desk.paid = none) : desk.book = desk := by
  unfold Desk.book
  rw [settled]

/-- Paying for the first panel of a head that has no mark. -/
theorem Discreet.pay (discreet : Discreet desk) (settled : desk.paid = none) {head runId : Str}
    {rc : Option Int} (unmarked : desk.marked desk.current (head.take 16) = false)
    : Discreet (desk.pay base head runId rc) := by
  have unowed (number : Nat) (other : Str) : ¬desk.Owes number other := by
    intro owes
    obtain ⟨_, panel, paid, _⟩ := owes
    rw [settled] at paid
    cases paid
  refine { once := ?_, marked := ?_, unbooked := discreet.unbooked }
  · intro number other
    rw [Desk.panelsOf_pay]
    split
    · rename_i same
      obtain ⟨rfl, rfl⟩ := same
      have none_ := discreet.marked _ _ (unowed _ _) unmarked
      omega
    · exact discreet.once number other
  · intro number other notOwed isUnmarked
    have different : ¬(desk.current = number ∧ head = other) :=
      fun same => notOwed ⟨same.1, _, rfl, same.2⟩
    rw [Desk.panelsOf_pay, if_neg different]
    exact discreet.marked number other (unowed _ _) isUnmarked

/-- Marking a head accounts for its panel. -/
theorem Discreet.mark (discreet : Discreet desk) {number : Nat} {head : Str}
    (owed : ∀ other some_, desk.Owes other some_ → other = number ∧ some_ = head)
    : Discreet (desk.mark number (head.take 16)).settle := by
  refine { once := discreet.once, marked := ?_, unbooked := discreet.unbooked }
  intro other some_ _ isUnmarked
  have unmarked
      : desk.marked other (some_.take 16) = false
        ∧ ¬(other = number ∧ some_.take 16 = head.take 16) := by
    by_cases sameNumber : other = number
    · subst sameNumber
      by_cases sameHead : some_.take 16 = head.take 16
      · simp [Desk.mark, Desk.settle, sameHead] at isUnmarked
      · refine ⟨?_, fun same => sameHead same.2⟩
        simpa [Desk.mark, Desk.settle, sameHead] using isUnmarked
    · refine ⟨?_, fun same => sameNumber same.1⟩
      simpa [Desk.mark, Desk.settle, sameNumber] using isUnmarked
  refine discreet.marked other some_ (fun owes => unmarked.2 ?_) unmarked.1
  obtain ⟨rfl, rfl⟩ := owed other some_ owes
  exact ⟨rfl, rfl⟩

/-- With every panel passing, a review pays for a panel only to pass. -/
theorem reviewPass_passes (opened : shadowing.opened prs pr desk)
    (unmarked : desk.marked pr.number (pr.headRefOid.take 16) = false)
    : (reviewPass config base pr.headRefOid).Ensures (passing config repo markable)
        (fun verdict later =>
          shadowing.opened prs pr later
          ∨ verdict = "pass".toList
            ∧ Discreet later
            ∧ later.current = pr.number
            ∧ ∀ panel, later.paid = some panel → panel.head = pr.headRefOid)
        desk := by
  have steady
      : Steady (passing config repo markable) Calm
          (fun desk =>
            shadowing.opened prs pr desk
            ∧ desk.marked pr.number (pr.headRefOid.take 16) = false) :=
    calm_steady
      (fun unbooked here =>
        ⟨⟨⟨here.1.1.1.ignores (unbooked here.1.1.2), here.1.1.2⟩, here.1.2⟩, here.2⟩)
      fun here => here.1.1.1
  unfold reviewPass
  split
  · exact calm_opened.ends opened fun _ here => .inl here
  · refine steady.asks trivial ⟨opened, unmarked⟩ fun runId after here =>
      steady.asks trivial here fun made after here => ?_
    split
    · refine steady.calls here (fun _ here => here.1.1.1) fun rc before after here answered => ?_
      obtain ⟨rfl, rfl⟩ := answered
      obtain ⟨⟨⟨discreet, settled⟩, current⟩, unmarked⟩ := here
      have paid : Discreet (before.pay base pr.headRefOid runId (some 0)) :=
        discreet.pay settled (current ▸ unmarked)
      have steady
          : Steady (passing config repo markable) (fun _ => False)
              (fun later => later = before.pay base pr.headRefOid runId (some 0)) :=
        { stable := fun here same => same.trans here, permits := False.elim, step := False.elim }
      refine steady.calls rfl (fun _ same => same ▸ paid) fun verdict now later same answered => ?_
      cases same
      obtain ⟨same, passes⟩ := answered
      obtain rfl : later = _ := same
      obtain ⟨verdict, rfl, passed⟩ := passes _ rfl
      obtain ⟨_, rfl⟩ := passed
      dsimp only
      rw [if_pos ⟨rfl, ⟨rfl, rfl, rfl⟩, rfl⟩]
      refine Ensures.done fun last same => .inr ?_
      cases same
      refine ⟨rfl, paid, current, fun panel isPanel => ?_⟩
      cases isPanel
      rfl
    · exact steady.ends here fun _ here => .inl here.1

/-- A failure without a panel counts an attempt, but not for a panel. -/
theorem bumpAttempt_unbooked (opened : shadowing.opened prs pr desk) {head : Str}
    : (bumpAttempt pr.number head).Ensures (passing config repo markable)
        (fun _ later => Discreet later ∧ later.paid = none) desk := by
  have start : Discreet desk ∧ desk.paid = none := opened.1
  refine calm_discreet.asks trivial start fun made after start => ?_
  split
  · refine calm_discreet.asks trivial start fun count after start => ?_
    refine calm_discreet.calls start (fun _ here => here.1)
      fun written before after here answered => ?_
    obtain ⟨⟨left, _, _, isAfter⟩, _⟩ := answered
    have counted : Discreet after ∧ after.paid = none := by
      rw [isAfter, Desk.book_settled here.2]
      have same : Discreet (before.count pr.number head left) :=
        ⟨here.1.once, here.1.marked, here.1.unbooked⟩
      split
      · refine ⟨⟨same.once, fun number other _ => same.marked number other ?_, same.unbooked⟩, rfl⟩
        intro owes
        obtain ⟨_, panel, paid, _⟩ := owes
        exact absurd (here.2.symm.trans paid) nofun
      · exact ⟨same, here.2⟩
    split
    · exact calm_discreet.ends counted fun _ here => here
    · exact calm_discreet.ends counted fun _ here => here
  · exact calm_discreet.ends start fun _ here => here

theorem reviewStep_discreet (shadow : config.shadowCode = true)
    (opened : shadowing.opened prs pr desk)
    (unmarked : desk.marked pr.number (pr.headRefOid.take 16) = false)
    : (reviewStep config pr base budget).Ensures (passing config repo markable)
        (shadowing.judged prs pr) desk := by
  have marks {desk : Desk} (discreet : Discreet desk) (current : desk.current = pr.number)
      (paid : ∀ panel, desk.paid = some panel → panel.head = pr.headRefOid)
      : (mergeStep config pr base budget).Ensures (passing config repo markable)
          (shadowing.judged prs pr) desk := by
    unfold mergeStep
    rw [if_pos (config.shadowIsDry shadow), if_pos shadow]
    refine Ensures.call fun now same => ⟨same ▸ discreet, fun _ later answered => ?_⟩
    cases same
    obtain ⟨⟨_, rfl⟩, _⟩ := answered
    refine calm_discreet.ends ⟨discreet.mark ?_, rfl⟩ fun _ here => here
    intro other some_ owes
    obtain ⟨isCurrent, panel, isPaid, rfl⟩ := owes
    exact ⟨isCurrent.symm.trans current, paid panel isPaid⟩
  refine Ensures.bind (reviewPass_passes opened unmarked) fun verdict later reviewed => ?_
  rcases reviewed with opened | ⟨rfl, discreet, current, paid⟩
  · split
    · refine Ensures.bind (bumpAttempt_unbooked opened) fun attempts later here => ?_
      split
      · exact calm_discreet.ends here fun _ here => here
      · exact calm_discreet.ends here fun _ here => here
    · split
      · exact calm_discreet.ends opened.1 fun _ here => here
      · refine marks opened.1.1 opened.2 fun panel isPaid => ?_
        rw [opened.1.2] at isPaid
        cases isPaid
  · rw [if_neg (by decide), if_neg (by decide)]
    exact marks discreet current paid

theorem shadowing_kept (shadow : config.shadowCode = true)
    : shadowing.Kept (passing config repo markable) config repo where
  starts := calm_discreet.fewer Starting.calm
  loads := fun _ answered => answered.1.1 _ rfl
  between := calm_discreet.fewer False.elim
  judges := calm_discreet.fewer False.elim
  lists := by
    intro state sound
    refine ⟨sound.1, fun {listed after} answered => ?_⟩
    obtain ⟨rfl, _⟩ := answered
    exact ⟨⟨sound.1.once, sound.1.marked, sound.1.unbooked⟩, sound.2⟩
  looks := by
    intro prs pr state _ sound
    refine ⟨sound.1, fun {prior after} answered => ?_⟩
    obtain ⟨⟨_, rfl⟩, _⟩ := answered
    have turned : Discreet (state.turn pr.number) := by
      refine ⟨sound.1.once, fun number head _ => sound.1.marked number head ?_, sound.1.unbooked⟩
      intro owes
      obtain ⟨_, panel, paid, _⟩ := owes
      exact absurd (sound.2.symm.trans paid) nofun
    split
    · exact ⟨⟨turned, rfl⟩, rfl⟩
    · exact ⟨turned, rfl⟩
  opens := by
    intro prs pr budget _
    refine { steady := calm_opened.fewer Preliminary.calm, ends := fun _ _ opened => opened.1,
             bounds := ?_ }
    intro base state opened
    exact boundsStep_reviews calm_opened (fun _ opened => opened.1)
      (fun desk here unmarked => reviewStep_discreet shadow here (unmarked shadow)) opened
  defers := fun judged _ => judged
  records := by
    intro prs pr evaluated decision state judged _
    refine ⟨judged.1, fun {answer after} answered => ?_⟩
    obtain ⟨rfl, _⟩ := answered
    rw [Desk.book_settled judged.2]
    refine ⟨⟨judged.1.once, fun number head _ => judged.1.marked number head ?_,
      judged.1.unbooked⟩, rfl⟩
    intro owes
    obtain ⟨_, panel, paid, _⟩ := owes
    exact absurd (judged.2.symm.trans paid) nofun
  ends := fun sound => sound

theorem Desk.Fresh.discreet (fresh : desk.Fresh) : Discreet desk where
  once := fun number head => by simp [Desk.panelsOf, fresh.panels]
  marked := fun number head _ _ => by simp [Desk.panelsOf, fresh.panels]
  unbooked := fresh.booked

/-- In shadow mode nothing is ever merged. Where every panel passes and no tick is cut off with a
panel that has no mark yet, nothing is recorded because of a panel, and no head has two panels.
-/
theorem shadow_reviews_once {start : Desk} (shadow : config.shadowCode = true)
    (fresh : start.Fresh)
    : (During (unmerging config repo markable) (tick config) (fun _ => True) start desk
        → desk.merges = [])
      ∧ (During (passing config repo markable) (tick config)
        (fun desk => desk.paid = none) start desk
        → desk.booked = [] ∧ ∀ number head, desk.panelsOf number head ≤ 1) := by
  constructor
  · intro during
    have initially : unmerged.sound [] start := fresh.merges
    exact during.invariant initially (fun _ sound => (unmerged_kept shadow).ticks sound)
      (fun _ _ _ unmerged => unmerged) (fun _ sound => sound) fun _ _ unmerged => unmerged
  · intro during
    have initially : shadowing.sound [] start := ⟨fresh.discreet, fresh.paid⟩
    have discreet : Discreet desk :=
      during.invariant initially (fun _ sound => (shadowing_kept shadow).ticks sound)
        (fun _ _ settled discreet => ⟨discreet, settled⟩) (fun _ sound => sound.1)
        fun _ _ discreet => discreet
    exact ⟨discreet.unbooked, discreet.once⟩

-- Samples

/-- A process in shadow mode. -/
def shadowConfig : Config :=
  { sampleConfig false with shadowCode := true, dryRun := true, shadowIsDry := fun _ => rfl }

/-- The sample changes code. -/
def codeDiff : Bytes :=
  ascii ":100644 100644 1111111 2222222 M" ++ [0] ++ ascii "main.py" ++ [0]

def codeAnswers : (query : Query) → Answer query
  | .diffRaw _ _ => some codeDiff
  | query => sampleAnswers query

/-- The panel finds something to fix in the code. -/
def rejectingServes : (query : Query) → Desk → Except Unit (Answer query × Desk)
  | .diffRaw _ _, desk => .ok (some codeDiff, desk)
  | .playReview base head runId, desk => .ok (some 1, desk.pay base head runId (some 1))
  | .readVerdict, desk =>
      .ok (some { runId := "am-1".toList, base := sampleBase, head := sampleHead,
                  verdict := "NEEDS-FIX".toList }, desk)
  | query, desk => sampleServes query desk

theorem rejectingServes_serves {answered : Answer query × Desk}
    (same : rejectingServes query desk = .ok answered)
    : serves config sampleRepo true query desk answered.1 answered.2 := by
  cases query
  case diffRaw | playReview | readVerdict =>
    cases same
    rfl
  all_goals exact sampleServes_serves same

theorem rejecting_during {setting : Setting Query Answer Desk} {cuttable : Desk → Prop}
    (answers
      : ∀ {query desk answered},
          rejectingServes query desk = .ok answered
          → setting.answers query desk answered.1 answered.2)
    {last : Nat × Desk} (ended : (tick config).run rejectingServes sampleDesk = .ok last)
    : During setting (tick config) cuttable sampleDesk last.2 :=
  ⟨sampleDesk, some last.1, .start, Executes.of_run answers ended⟩

/-- The panels of the sample pass. -/
theorem sampleServes_passes {answered : Answer query × Desk}
    (same : sampleServes query desk = .ok answered)
    : Passes query desk answered.1 := by
  cases query
  case playReview =>
    cases same
    rfl
  case readVerdict =>
    intro panel paid
    simp only [sampleServes, paid] at same
    split at same
    · rename_i succeeded
      cases same
      exact ⟨_, rfl, succeeded, rfl⟩
    · cases same
  all_goals trivial

/-- A panel that passes, for a head that gets its mark. -/
theorem shadow_reviews_once_sample
    : ∃ desk : Desk,
        desk.panels = [(7, sampleHead, sampleBase)]
        ∧ desk.merges = []
        ∧ desk.booked = []
        ∧ desk.panelsOf 7 sampleHead ≤ 1 := by
  have ran
      : ((tick shadowConfig).run sampleServes sampleDesk).map (fun ended => ended.2.panels)
        = .ok [(7, sampleHead, sampleBase)] := by
    decide +kernel
  obtain ⟨last, ended, panels⟩ := exists_of_map_ok ran
  have anyhow
      : During (unmerging shadowConfig sampleRepo true) (tick shadowConfig)
        (fun _ => True) sampleDesk
          last.2 :=
    sample_during (fun same => And.intro (sampleServes_serves same) trivial) ended
  have passes
      : During (passing shadowConfig sampleRepo true) (tick shadowConfig)
          (fun desk => desk.paid = none) sampleDesk last.2 :=
    sample_during
      (fun same => And.intro (sampleServes_serves same) (sampleServes_passes same)) ended
  have once :=
    @shadow_reviews_once shadowConfig sampleRepo true last.2 sampleDesk rfl sampleDesk_fresh
  obtain ⟨unbooked, atMost⟩ := once.2 passes
  exact ⟨last.2, panels, once.1 anyhow, unbooked, atMost 7 sampleHead⟩

/-- The name of the mark has the slash of the repository in it, so the mark is never made: the panel
is paid for again and again. And a panel that rejects the code has its verdict recorded.
-/
theorem shadow_reviews_again
    : acceptsDiff codeDiff = false
      ∧ (∃ desk,
          Repeats (unsure shadowConfig false) (tick shadowConfig) (fun _ => True) sampleDesk desk
          ∧ desk.panels.count (7, sampleHead, sampleBase) = 2)
      ∧ ∃ desk,
          During (unsure shadowConfig true) (tick shadowConfig) (fun _ => True) sampleDesk desk
          ∧ desk.seen 7 sampleHead = true
          ∧ desk.booked = [(7, sampleHead)] := by
  refine ⟨by decide +kernel, ?_, ?_⟩
  · obtain ⟨desk, repeats, _, panels⟩ :=
      @panels_repeat shadowConfig false codeAnswers 21 (by decide +kernel) (by decide +kernel) 2
    exact ⟨desk, repeats, by rw [panels, List.count_replicate_self]⟩
  · have ran
        : ((tick shadowConfig).run rejectingServes sampleDesk).map
            (fun ended => (ended.2.seen 7 sampleHead, ended.2.booked))
          = .ok (true, [(7, sampleHead)]) := by
      decide +kernel
    obtain ⟨last, ended, found⟩ := exists_of_map_ok ran
    obtain ⟨seen, booked⟩ := Prod.mk.inj found
    exact ⟨last.2,
      rejecting_during (fun same => And.intro (rejectingServes_serves same) trivial) ended, seen,
      booked⟩

end Automerge
