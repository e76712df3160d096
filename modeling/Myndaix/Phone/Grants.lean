import Myndaix.Phone.Caps

/-! No window grants more calls than the limit of its verb, as long as no call gets the lock while
another window of the verb has both a counter and calls to come.
-/

namespace Phone

open Systems

variable {limit : Verb → Nat} {state later : State} {session other : Nat} {cf old : Counter}
  {next : Stage}

-- Stages

/-- Who holds a lock is in a call. -/
theorem call_of_held {stage : Stage} (held : stage.held = some cf) : stage.call = some cf := by
  cases stage with
  | away => cases held
  | waiting _ => cases held
  | locked _ => exact held
  | counted _ _ => exact held
  | sweeping _ => exact held

namespace State

/-- Only the session moves. -/
theorem stage_setStage
    : (state.setStage session next).stage other
      = if other = session then next else state.stage other :=
  Function.update_apply _ _ _ _

@[simp] theorem stage_setStage_self : (state.setStage session next).stage session = next :=
  Function.update_self _ _ _

/-- Only the session leaves. -/
theorem stage_leave
    : (state.leave session).stage other = if other = session then .away else state.stage other :=
  stage_setStage

/-- A session that has not moved was there before. -/
theorem stage_of_setStage {stage : Stage} (moved : next ≠ stage)
    (there : (state.setStage session next).stage other = stage)
    : other ≠ session ∧ state.stage other = stage := by
  rw [stage_setStage] at there
  split at there
  · exact absurd there moved
  · rename_i another
    exact ⟨another, there⟩

/-- One counter is written. -/
theorem counters_write {amount : Option Nat}
    : (state.write old amount).counters cf = if cf = old then amount else state.counters cf :=
  Function.update_apply _ _ _ _

/-- A write to one counter, or its removal, leaves what the others count. -/
theorem count_write {amount : Option Nat}
    : (state.write old amount).count cf = if cf = old then amount.getD 0 else state.count cf := by
  rw [count, counters_write]
  split
  · rfl
  · rfl

/-- One more is granted of the counter. -/
theorem granted_grant
    : (state.grant old).granted cf
      = if cf = old then state.granted old + 1 else state.granted cf :=
  Function.update_apply _ _ _ _

/-- One lock is taken. -/
theorem lock_lockBy {verb own : Verb}
    : (state.lockBy session own).lock verb = if verb = own then some session else state.lock verb :=
  Function.update_apply _ _ _ _

/-- Who leaves drops the lock that it holds. -/
theorem lock_leave_of_held (held : (state.stage session).held = some cf)
    : (state.leave session).lock = Function.update state.lock cf.verb none := by
  simp only [leave, held]

/-- Who holds none drops none. -/
theorem lock_leave_of_free (free : (state.stage session).held = none)
    : (state.leave session).lock = state.lock := by
  simp only [leave, free]

end State

-- Steps

/-- What a step can do. -/
inductive Move (limit : Verb → Nat) (state : State) : Action → State → Prop where
  | pass : Move limit state .pass { state with now := state.now + 1 }
  | call {session : Nat} {verb : Verb} (away : state.stage session = .away)
    : Move limit state (.call session verb)
        (state.setStage session (.waiting ⟨verb, verb.window.stamp state.now⟩))
  | lock {session : Nat} {cf : Counter} (waiting : state.stage session = .waiting cf)
    (free : state.lock cf.verb = none)
    : Move limit state (.lock session)
        ((state.setStage session (.locked cf)).lockBy session cf.verb)
  | below {session : Nat} {cf : Counter} (locked : state.stage session = .locked cf)
    (below : state.count cf < limit cf.verb)
    : Move limit state (.check session) (state.setStage session (.counted cf (state.count cf)))
  | spent {session : Nat} {cf : Counter} (locked : state.stage session = .locked cf)
    : Move limit state (.check session) (state.leave session)
  | store {session : Nat} {cf : Counter} {n : Nat} (counted : state.stage session = .counted cf n)
    : Move limit state (.store session)
        ((state.setStage session (.sweeping cf)).write cf (some (n + 1)))
  | sweep {session : Nat} {cf old : Counter} (sweeping : state.stage session = .sweeping cf)
    (same : old.verb = cf.verb) (another : old ≠ cf)
    : Move limit state (.sweep session old) (state.write old none)
  | finish {session : Nat} {cf : Counter} (sweeping : state.stage session = .sweeping cf)
    : Move limit state (.finish session) ((state.leave session).grant cf)
  | fail {session : Nat} : Move limit state (.fail session) (state.leave session)

variable {action : Action}

/-- All that a step can do. -/
theorem move_of_step (taken : step limit action state = some later)
    : Move limit state action later := by
  cases action with
  | pass =>
      cases taken
      exact .pass
  | call session verb =>
      simp only [step] at taken
      split at taken
      · rename_i away
        cases taken
        exact .call away
      · cases taken
  | lock session =>
      simp only [step] at taken
      split at taken
      · rename_i waiting
        split at taken
        · rename_i free
          cases taken
          exact .lock waiting free
        · cases taken
      · cases taken
  | check session =>
      simp only [step] at taken
      split at taken
      · rename_i locked
        split at taken
        · rename_i below
          cases taken
          exact .below locked below
        · cases taken
          exact .spent locked
      · cases taken
  | store session =>
      simp only [step] at taken
      split at taken
      · rename_i counted
        cases taken
        exact .store counted
      · cases taken
  | sweep session old =>
      simp only [step] at taken
      split at taken
      · rename_i sweeping
        split at taken
        · rename_i swept
          cases taken
          exact .sweep sweeping swept.1 swept.2
        · cases taken
      · cases taken
  | finish session =>
      simp only [step] at taken
      split at taken
      · rename_i sweeping
        cases taken
        exact .finish sweeping
      · cases taken
  | fail session =>
      cases taken
      exact .fail

-- Live windows

/-- A counter that is called for is live. -/
theorem live_of_call (call : (state.stage session).call = some cf) : state.Live cf :=
  .inr ⟨session, call⟩

/-- Stamps go on with the hours. -/
theorem stamp_mono (window : Window) {hours more : Nat} (passed : hours ≤ more)
    : window.stamp hours ≤ window.stamp more := by
  cases window with
  | hour => exact passed
  | day => exact Nat.div_le_div_right passed

/-- A session that moves while the clock stands still makes a window live only by its own call. -/
theorem live_of_setStage (same : ∀ cf, next.call = some cf → state.Live cf)
    (live : (state.setStage session next).Live cf)
    : state.Live cf := by
  rcases live with ahead | ⟨other, call⟩
  · exact .inl ahead
  · rw [State.stage_setStage] at call
    split at call
    · exact same cf call
    · exact live_of_call call

/-- A session that keeps its call makes nothing live. -/
theorem live_of_kept (same : next.call = (state.stage session).call)
    (live : (state.setStage session next).Live cf)
    : state.Live cf :=
  live_of_setStage (fun _ call => live_of_call (same ▸ call)) live

/-- Nor does one that leaves. -/
theorem live_of_leave (live : (state.leave session).Live cf) : state.Live cf :=
  @live_of_setStage _ _ _ .away (fun _ call => by cases call) live

/-- No step makes a window live again. -/
theorem Move.live (move : Move limit state action later) (live : later.Live cf)
    : state.Live cf := by
  cases move with
  | pass =>
      rcases live with ahead | carried
      · exact .inl (Nat.le_trans (stamp_mono _ (Nat.le_succ _)) ahead)
      · exact .inr carried
  | call away =>
      refine live_of_setStage (fun cf call => ?_) live
      cases call
      exact .inl (Nat.le_refl _)
  | lock waiting free => exact live_of_kept (by rw [waiting]; rfl) live
  | below locked below => exact live_of_kept (by rw [locked]; rfl) live
  | spent locked => exact live_of_leave live
  | store counted => exact live_of_kept (by rw [counted]; rfl) live
  | sweep sweeping same another => exact live
  | finish sweeping => exact live_of_leave live
  | fail => exact live_of_leave live

/-- Who is alone stays so while no other counter of the verb appears. -/
theorem State.Alone.mono (alone : state.Alone cf)
    (still : ∀ other, later.Live other → state.Live other)
    (kept
      : ∀ other,
          other.verb = cf.verb
          → other ≠ cf
          → state.counters other = none
          → later.counters other = none)
    : later.Alone cf :=
  fun other same another live =>
    kept other same another (alone other same another (still other live))

-- The invariant

/-- The lock is had by one session, which is alone once it is below the limit; the counter of a live
window counts at least the calls that were granted in it.
-/
structure Sound (limit : Verb → Nat) (state : State) : Prop where
  locks : ∀ session cf, (state.stage session).held = some cf → state.lock cf.verb = some session
  bounded : ∀ cf n, state.counters cf = some n → n ≤ limit cf.verb
  within : ∀ cf, state.granted cf ≤ limit cf.verb
  covered : ∀ cf, state.Live cf → state.granted cf ≤ state.count cf
  counted
    : ∀ session cf n,
        state.stage session = .counted cf n → n = state.count cf ∧ n < limit cf.verb
  stored : ∀ session cf, state.stage session = .sweeping cf → state.granted cf < state.count cf
  alone
    : ∀ session cf,
        (state.stage session).held = some cf
        → (state.stage session = .locked cf → state.count cf < limit cf.verb)
        → state.Alone cf

section Invariant

/-- The sessions that have the lock of one verb are one session. -/
theorem Sound.sole (sound : Sound limit state) {first second : Counter}
    (one : (state.stage session).held = some first) (two : (state.stage other).held = some second)
    (same : first.verb = second.verb)
    : session = other := by
  have mine := sound.locks session first one
  rw [same, sound.locks other second two] at mine
  exact (Option.some.inj mine).symm

/-- No counter is above its limit. -/
theorem Sound.count_le (sound : Sound limit state) (cf : Counter)
    : state.count cf ≤ limit cf.verb := by
  unfold State.count
  cases found : state.counters cf with
  | none => exact Nat.zero_le _
  | some n => exact sound.bounded cf n found

/-- An hour passes. -/
theorem Sound.pass (sound : Sound limit state)
    : Sound limit { state with now := state.now + 1 } where
  locks := sound.locks
  bounded := sound.bounded
  within := sound.within
  covered cf live := sound.covered cf ((@Move.pass limit _).live live)
  counted := sound.counted
  stored := sound.stored
  alone session cf held below :=
    (sound.alone session cf held below).mono (fun _ live => (@Move.pass limit _).live live)
      fun _ _ _ absent => absent

/-- A session leaves. -/
theorem Sound.leave (sound : Sound limit state) (session : Nat)
    : Sound limit (state.leave session) where
  locks other cf held := by
    rw [State.stage_leave] at held
    split at held
    · cases held
    · rename_i another
      have still := sound.locks other cf held
      cases mine : (state.stage session).held with
      | none => rwa [State.lock_leave_of_free mine]
      | some own =>
          rw [State.lock_leave_of_held mine, Function.update_of_ne]
          · exact still
          · exact fun same => another (sound.sole held mine same)
  bounded := sound.bounded
  within := sound.within
  covered cf live := sound.covered cf (live_of_leave live)
  counted other cf n counted :=
    sound.counted other cf n (State.stage_of_setStage Stage.noConfusion counted).2
  stored other cf sweeping :=
    sound.stored other cf (State.stage_of_setStage Stage.noConfusion sweeping).2
  alone other cf held below := by
    rw [State.stage_leave] at held below
    split at held
    · cases held
    · rename_i another
      rw [if_neg another] at below
      exact (sound.alone other cf held below).mono (fun _ live => live_of_leave live)
        fun _ _ _ absent => absent

/-- A session that goes on under the lock, or before it, without a write. -/
theorem Sound.setStage (sound : Sound limit state)
    (still : ∀ cf, next.call = some cf → state.Live cf)
    (held : ∀ cf, next.held = some cf → (state.stage session).held = some cf)
    (counted : ∀ cf n, next = .counted cf n → n = state.count cf ∧ n < limit cf.verb)
    (alone : ∀ cf, next.held = some cf → state.Alone cf)
    (unswept : ∀ cf, next ≠ .sweeping cf)
    : Sound limit (state.setStage session next) where
  locks other cf holds := by
    rw [State.stage_setStage] at holds
    split at holds
    · rename_i own
      exact own ▸ sound.locks session cf (held cf holds)
    · exact sound.locks other cf holds
  bounded := sound.bounded
  within := sound.within
  covered cf live := sound.covered cf (live_of_setStage still live)
  counted other cf n there := by
    rw [State.stage_setStage] at there
    split at there
    · exact counted cf n there
    · exact sound.counted other cf n there
  stored other cf there :=
    sound.stored other cf (State.stage_of_setStage (unswept cf) there).2
  alone other cf holds below := by
    have own : state.Alone cf := by
      rw [State.stage_setStage] at holds below
      split at holds
      · exact alone cf holds
      · rename_i another
        rw [if_neg another] at below
        exact sound.alone other cf holds below
    exact own.mono (fun _ live => live_of_setStage still live) fun _ _ _ absent => absent

/-- A session takes the lock in time. -/
theorem Sound.lock (sound : Sound limit state) (waiting : state.stage session = .waiting cf)
    (free : state.lock cf.verb = none) (timely : state.count cf < limit cf.verb → state.Alone cf)
    : Sound limit ((state.setStage session (.locked cf)).lockBy session cf.verb) where
  locks other own held := by
    rw [State.lock_lockBy]
    by_cases mine : other = session
    · obtain rfl : cf = own := by simpa [State.lockBy, mine, Stage.held] using held
      rw [if_pos rfl, mine]
    · have still := sound.locks other own
        (by simpa [State.lockBy, State.stage_setStage, mine] using held)
      rw [if_neg]
      · exact still
      · intro same
        rw [same, free] at still
        cases still
  bounded := sound.bounded
  within := sound.within
  covered own live := sound.covered own ((@Move.lock limit _ _ _ waiting free).live live)
  counted other own n counted :=
    sound.counted other own n (State.stage_of_setStage Stage.noConfusion counted).2
  stored other own sweeping :=
    sound.stored other own (State.stage_of_setStage Stage.noConfusion sweeping).2
  alone other own held below := by
    have still : state.Alone own := by
      by_cases mine : other = session
      · obtain rfl : cf = own := by simpa [State.lockBy, mine, Stage.held] using held
        exact timely (below (by simp [State.lockBy, mine]))
      · refine sound.alone other own ?_ fun locked => below ?_
        · simpa [State.lockBy, State.stage_setStage, mine] using held
        · simpa [State.lockBy, State.stage_setStage, mine] using locked
    exact still.mono (fun _ live => (@Move.lock limit _ _ _ waiting free).live live)
      fun _ _ _ absent => absent

/-- A session stores one more than it read. -/
theorem Sound.store {n : Nat} (sound : Sound limit state)
    (counted : state.stage session = .counted cf n)
    : Sound limit ((state.setStage session (.sweeping cf)).write cf (some (n + 1))) := by
  obtain ⟨read, below⟩ := sound.counted session cf n counted
  have mine : (state.stage session).held = some cf := by rw [counted]; rfl
  have covered : state.granted cf ≤ n := read ▸ sound.covered cf (live_of_call (call_of_held mine))
  -- A counter that another session works on is another counter.
  have apart {other : Nat} {own : Counter} (another : other ≠ session)
      (held : (state.stage other).held = some own) : own ≠ cf := by
    rintro rfl
    exact another (sound.sole held mine rfl)
  exact {
    locks := fun other own held => by
      by_cases same : other = session
      · obtain rfl : cf = own := by simpa [State.write, same, Stage.held] using held
        exact same ▸ sound.locks session cf mine
      · exact sound.locks other own (by simpa [State.write, State.stage_setStage, same] using held)
    bounded := fun own m there => by
      rw [State.counters_write] at there
      split at there
      · rename_i same
        cases there
        exact same ▸ below
      · exact sound.bounded own m there
    within := sound.within
    covered := fun own live => by
      rw [State.count_write]
      split
      · rename_i same
        rw [same]
        exact Nat.le_succ_of_le covered
      · exact sound.covered own ((@Move.store limit _ _ _ _ counted).live live)
    counted := fun other own m there => by
      obtain ⟨another, there⟩ := State.stage_of_setStage Stage.noConfusion there
      rw [State.count_write, if_neg (apart another (by rw [there]; rfl))]
      exact sound.counted other own m there
    stored := fun other own there => by
      rw [State.count_write]
      split
      · rename_i same
        rw [same]
        exact Nat.lt_succ_of_le covered
      · rename_i unlike
        refine sound.stored other own (State.stage_of_setStage (fun same => ?_) there).2
        cases same
        exact unlike rfl
    alone := fun other own held locked => by
      have own_alone : state.Alone own ∧ (own.verb = cf.verb → own = cf) := by
        by_cases same : other = session
        · obtain rfl : cf = own := by simpa [State.write, same, Stage.held] using held
          refine ⟨sound.alone session cf mine fun locked => ?_, fun _ => rfl⟩
          rw [counted] at locked
          cases locked
        · have held : (state.stage other).held = some own := by
            simpa [State.write, State.stage_setStage, same] using held
          refine ⟨sound.alone other own held fun still => ?_, fun verb => ?_⟩
          · have below := locked (by simpa [State.write, State.stage_setStage, same] using still)
            rwa [State.count_write, if_neg (apart same held)] at below
          · exact absurd (sound.sole held mine verb) same
      refine own_alone.1.mono (fun _ live => (@Move.store limit _ _ _ _ counted).live live) ?_
      intro old verb unlike absent
      rw [State.counters_write, if_neg]
      · exact absent
      · rintro rfl
        exact unlike (own_alone.2 verb.symm).symm
  }

/-- Who sweeps is alone, and has the lock of what it sweeps. -/
theorem Sound.alone_of_sweeping (sound : Sound limit state)
    (sweeping : state.stage session = .sweeping cf)
    : (state.stage session).held = some cf ∧ state.Alone cf := by
  have mine : (state.stage session).held = some cf := by rw [sweeping]; rfl
  refine ⟨mine, sound.alone session cf mine fun locked => ?_⟩
  rw [sweeping] at locked
  cases locked

/-- A session sweeps an old counter. -/
theorem Sound.sweep (sound : Sound limit state) (sweeping : state.stage session = .sweeping cf)
    (same : old.verb = cf.verb) (another : old ≠ cf)
    : Sound limit (state.write old none) := by
  obtain ⟨mine, alone⟩ := sound.alone_of_sweeping sweeping
  have unlike {other : Nat} {own : Counter} (held : (state.stage other).held = some own)
      : own ≠ old := by
    rintro rfl
    obtain rfl := sound.sole held mine same
    rw [mine] at held
    exact another (Option.some.inj held).symm
  exact {
    locks := sound.locks
    bounded := fun own m there => by
      rw [State.counters_write] at there
      split at there
      · cases there
      · exact sound.bounded own m there
    within := sound.within
    covered := fun own live => by
      have covered := sound.covered own live
      rw [State.count_write]
      split
      · rename_i swept
        subst swept
        rwa [State.count, alone own same another live] at covered
      · exact covered
    counted := fun other own m there => by
      have held : (state.stage other).held = some own := congrArg Stage.held there
      rw [State.count_write, if_neg (unlike held)]
      exact sound.counted other own m there
    stored := fun other own there => by
      have held : (state.stage other).held = some own := congrArg Stage.held there
      rw [State.count_write, if_neg (unlike held)]
      exact sound.stored other own there
    alone := fun other own held below => by
      rw [State.count_write, if_neg (unlike held)] at below
      refine (sound.alone other own held below).mono (fun _ live => live) ?_
      intro gone _ _ absent
      rw [State.counters_write]
      split
      · rfl
      · exact absent
  }

/-- A session is granted its call. -/
theorem Sound.finish (sound : Sound limit state) (sweeping : state.stage session = .sweeping cf)
    : Sound limit ((state.leave session).grant cf) := by
  obtain ⟨mine, _⟩ := sound.alone_of_sweeping sweeping
  have left := sound.leave session
  have stored := sound.stored session cf sweeping
  exact {
    locks := left.locks
    bounded := left.bounded
    within := fun own => by
      rw [State.granted_grant]
      split
      · rename_i same
        rw [same]
        exact Nat.le_trans stored (sound.count_le cf)
      · exact sound.within own
    covered := fun own live => by
      rw [State.granted_grant]
      split
      · rename_i same
        rw [same]
        exact stored
      · exact left.covered own live
    counted := left.counted
    stored := fun other own there => by
      obtain ⟨another, still⟩ := State.stage_of_setStage Stage.noConfusion there
      rw [State.granted_grant, if_neg]
      · exact left.stored other own there
      · rintro rfl
        exact another (sound.sole (by rw [still]; rfl) mine rfl)
    alone := left.alone
  }

/-- Every move that is timely keeps the counters sound. -/
theorem Sound.step (sound : Sound limit state) (timely : Timely limit state action)
    (move : Move limit state action later)
    : Sound limit later := by
  cases move with
  | pass => exact sound.pass
  | call away =>
      refine sound.setStage (fun cf call => ?_) ?_ ?_ ?_ ?_
      · cases call
        exact .inl (Nat.le_refl _)
      · exact fun _ held => by cases held
      · exact fun _ _ same => by cases same
      · exact fun _ held => by cases held
      · exact fun _ same => by cases same
  | lock waiting free => exact sound.lock waiting free (timely _ waiting)
  | below locked below =>
      have mine := congrArg Stage.held locked
      refine sound.setStage (fun own call => ?_) ?_ ?_ ?_ ?_
      · exact live_of_call ((congrArg Stage.call locked).trans call)
      · exact fun own held => mine.trans held
      · intro own n same
        cases same
        exact ⟨rfl, below⟩
      · intro own held
        cases held
        exact sound.alone _ _ mine fun _ => below
      · exact fun _ same => by cases same
  | spent locked => exact sound.leave _
  | store counted => exact sound.store counted
  | sweep sweeping same another => exact sound.sweep sweeping same another
  | finish sweeping => exact sound.finish sweeping
  | fail => exact sound.leave _

/-- No step removes or lowers the counter of a live window. -/
theorem Sound.keepsLive (sound : Sound limit state) (move : Move limit state action later)
    : KeepsLive state later := by
  intro own n live there
  cases move with
  | @store session cf m counted =>
      rw [State.counters_write]
      split
      · rename_i same
        have read := (sound.counted session cf m counted).1
        rw [State.count, ← same, show state.counters own = some n from there] at read
        exact ⟨m + 1, rfl, Nat.le_succ_of_le (Nat.le_of_eq read.symm)⟩
      · exact ⟨n, there, Nat.le_refl n⟩
  | @sweep session cf old sweeping same another =>
      rw [State.counters_write, if_neg]
      · exact ⟨n, there, Nat.le_refl n⟩
      · rintro rfl
        have absent := (sound.alone_of_sweeping sweeping).2 own same another live
        rw [absent] at there
        cases there
  | pass | call _ | lock _ _ | below _ _ | spent _ | finish _ | fail =>
      exact ⟨n, there, Nat.le_refl n⟩

end Invariant

-- Runs

theorem sound_of_runs (run : (caps limit).Runs (Timely limit) state) : Sound limit state := by
  refine run.invariant (fun fresh initial => ?_) fun state later action sound timely taken => ?_
  · obtain ⟨counters, _, stage, granted⟩ := initial
    have away (session : Nat) : fresh.stage session = .away := congrFun stage session
    exact {
      locks := fun session cf held => by
        rw [away] at held
        cases held
      bounded := fun cf n there => by
        rw [counters] at there
        cases there
      within := fun cf => by
        rw [granted]
        exact Nat.zero_le _
      covered := fun cf _ => by
        rw [granted]
        exact Nat.zero_le _
      counted := fun session cf n there => by
        rw [away] at there
        cases there
      stored := fun session cf there => by
        rw [away] at there
        cases there
      alone := fun session cf held _ => by
        rw [away] at held
        cases held
    }
  · exact sound.step timely (move_of_step taken)

/-- A call that gets the lock out of time can go on to remove the counter of a live window. -/
theorem late_lock (late : ¬Timely limit state (.lock session))
    (taken : step limit (.lock session) state = some later)
    : ∃ checked stored old swept,
        step limit (.check session) later = some checked
        ∧ step limit (.store session) checked = some stored
        ∧ step limit (.sweep session old) stored = some swept
        ∧ ¬KeepsLive stored swept := by
  simp only [Timely, State.Alone, not_forall] at late
  obtain ⟨cf, waiting, below, old, verb, another, live, there⟩ := late
  obtain ⟨n, there⟩ := Option.ne_none_iff_exists'.mp there
  simp only [step, waiting] at taken
  split at taken
  · cases taken
    let locked := (state.setStage session (.locked cf)).lockBy session cf.verb
    have here : locked.stage session = .locked cf := State.stage_setStage_self
    let counted := locked.setStage session (.counted cf (locked.count cf))
    have there' : counted.stage session = .counted cf (locked.count cf) := State.stage_setStage_self
    let stored := (counted.setStage session (.sweeping cf)).write cf (some (locked.count cf + 1))
    have sweeps : stored.stage session = .sweeping cf := State.stage_setStage_self
    refine ⟨counted, stored, old, stored.write old none, ?_, ?_, ?_, fun keeps => ?_⟩
    · simp only [step, locked, here]
      exact if_pos below
    · simp only [step, there', stored]
    · simp only [step, sweeps]
      exact if_pos ⟨verb, another⟩
    · have alive : stored.Live old := by
        rcases live with ahead | ⟨other, call⟩
        · exact .inl ahead
        · refine @live_of_call _ other _ ?_
          by_cases same : other = session
          · subst same
            rw [waiting] at call
            rw [sweeps]
            exact call
          · simpa [stored, counted, locked, State.write, State.lockBy, State.stage_setStage, same]
              using call
      have kept : stored.counters old = some n :=
        (State.counters_write.trans (if_neg another)).trans there
      obtain ⟨m, gone, _⟩ := keeps old n alive kept
      rw [State.counters_write, if_pos rfl] at gone
      cases gone
  · cases taken

-- The caps

/-- In a run in which every call gets the lock in time, no window grants more calls than the limit
of its verb, and no step removes or lowers the counter of a window in which calls can still be
granted. A call below its limit that gets the lock out of time can remove such a counter.
-/
theorem caps_hold_in_time (limit : Verb → Nat)
    : (∀ state,
        (caps limit).Runs (Timely limit) state
        → (∀ cf, state.granted cf ≤ limit cf.verb)
          ∧ ∀ action later,
              Timely limit state action
              → step limit action state = some later
              → KeepsLive state later)
      ∧ ∀ state session later,
          ¬Timely limit state (.lock session)
          → step limit (.lock session) state = some later
          → ∃ checked stored old swept,
              step limit (.check session) later = some checked
              ∧ step limit (.store session) checked = some stored
              ∧ step limit (.sweep session old) stored = some swept
              ∧ ¬KeepsLive stored swept := by
  refine ⟨fun state run => ?_, fun state session later late taken => late_lock late taken⟩
  have sound := sound_of_runs run
  exact ⟨sound.within, fun action later _ taken => sound.keepsLive (move_of_step taken)⟩

/-- The caps that are there unless the environment has others. -/
def CAPS : Verb → Nat
  | .status => 60
  | .ask => 50
  | .get => 100
  | .reel => 5

/-- The surface in the last hour of a day, before its first session. -/
def midnight : State where
  now := 23
  counters _ := none
  lock _ := none
  stage _ := .away
  granted _ := 0

/-- The steps of a call that is granted. -/
def granting (session : Nat) (swept : List Counter) : List Action :=
  [Action.lock session, .check session, .store session] ++ swept.map (Action.sweep session)
    ++ [Action.finish session]

theorem caps_hold_in_time_call
    : ∃ state,
        (caps CAPS).Runs (Timely CAPS) state ∧ state.granted ⟨.reel, 0⟩ = 1
        ∧ ∀ cf, state.granted cf ≤ CAPS cf.verb := by
  obtain ⟨holds, _⟩ := caps_hold_in_time CAPS
  have begun : (caps CAPS).Runs (Timely CAPS) midnight := .start ⟨rfl, rfl, rfl, rfl⟩
  have called := begun.step (show Timely CAPS _ (.call 0 .reel) from trivial) rfl
  have alone : Timely CAPS (midnight.setStage 0 (.waiting ⟨.reel, 0⟩)) (.lock 0) :=
    fun _ _ _ _ _ _ _ => rfl
  have locked := called.step alone rfl
  have checked := locked.step (show Timely CAPS _ (.check 0) from trivial) rfl
  have stored := checked.step (show Timely CAPS _ (.store 0) from trivial) rfl
  have run := stored.step (show Timely CAPS _ (.finish 0) from trivial) rfl
  exact ⟨_, run, rfl, (holds _ run).1⟩

/-- The five calls of a day, then a sixth that waits while a call of the next day is granted. -/
def lateCall : List Action :=
  (List.range 5).flatMap (fun session => Action.call session .reel :: granting session [])
    ++ [Action.call 5 .reel, .pass, .call 6 .reel] ++ granting 6 [⟨.reel, 0⟩]
    ++ [Action.lock 5, .check 5, .store 5]

/-- A session reads the day before midnight and gets the lock behind the first one of the new day:
it finds no counter of its day, and removes that of the new day.
-/
theorem caps_fail_at_midnight
    : ∃ stored swept later,
        (caps CAPS).Runs (fun _ _ => True) stored
        ∧ step CAPS (.sweep 5 ⟨.reel, 1⟩) stored = some swept
        ∧ ¬KeepsLive stored swept
        ∧ step CAPS (.finish 5) swept = some later
        ∧ CAPS .reel < later.granted ⟨.reel, 0⟩ := by
  have begun : (caps CAPS).Runs (fun _ _ => True) midnight := .start ⟨rfl, rfl, rfl, rfl⟩
  have played
      : (((caps CAPS).play (fun _ _ => True) lateCall midnight).bind fun stored =>
          (step CAPS (.sweep 5 ⟨.reel, 1⟩) stored).bind fun swept =>
            (step CAPS (.finish 5) swept).map fun later =>
              ((stored.now, stored.counters ⟨.reel, 1⟩, swept.counters ⟨.reel, 1⟩),
                later.granted ⟨.reel, 0⟩))
        = some ((24, some 1, none), 6) := by
    decide +kernel
  obtain ⟨stored, run, played⟩ := Option.bind_eq_some_iff.mp played
  obtain ⟨swept, taken, played⟩ := Option.bind_eq_some_iff.mp played
  obtain ⟨later, ended, facts⟩ := Option.map_eq_some_iff.mp played
  obtain ⟨⟨clock, there, gone⟩, granted⟩ : (_ ∧ _ ∧ _) ∧ _ := by simpa using facts
  refine ⟨stored, swept, later, begun.play lateCall run, taken, fun keeps => ?_, ended, ?_⟩
  · obtain ⟨m, kept, _⟩ := keeps ⟨.reel, 1⟩ 1 (.inl (by rw [clock]; decide)) there
    rw [gone] at kept
    cases kept
  · rw [granted]
    decide

end Phone
