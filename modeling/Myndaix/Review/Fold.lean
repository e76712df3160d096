import Myndaix.Review.Hook

/-! Which pushed hops the skip fold keeps: the i-th hop takes the ref from its value i - 1 to its
value i, and a review of base..tip is a review of the hops on the way from base to tip.
-/

namespace Review

open Systems

variable {Sha : Type}

-- Hops that are delivered, and hops that the newest push reaches

namespace HookState

/-- A verdict was delivered for a range that the hop is in, after the hop was pushed. -/
def Delivered (state : HookState Sha) (hop : Nat) : Prop :=
  ∃ delivery ∈ state.deliveries, ∃ i, i < hop ∧ ∃ k, k < delivery.seen
    ∧ hop ≤ k
    ∧ state.values[i]? = some delivery.base
    ∧ state.values[k]? = some delivery.tip

/-- Every hop up to a value is delivered. -/
def Settled (state : HookState Sha) (last : Nat) : Prop :=
  ∀ hop, 1 ≤ hop → hop ≤ last → state.Delivered hop

/-- Every hop before the newest push was delivered, or its FRONT folded to the base of the hop or
further.
-/
def HopsKept (state : HookState Sha) : Prop :=
  ∀ hop, 1 ≤ hop
    → hop < state.newest.1
    → state.Delivered hop ∨ ∃ i, i < hop ∧ state.values[i]? = some state.newest.2

/-- A verdict whose worker did not fall back leaves no hop up to its tip undelivered. -/
def DeliveriesComplete (state : HookState Sha) : Prop :=
  ∀ delivery ∈ state.deliveries,
    delivery.backlog = false
    → ∀ k < delivery.seen, state.values[k]? = some delivery.tip → state.Settled k

end HookState

-- The runs in which no link is lost

/-- A walk comes to its end at a sha that has no skip marker, which is not the value of the ref
unless the hop that brought the ref there is delivered.
-/
def WalkEnds (state : HookState Sha) (b : Sha) : Prop :=
  state.skipped b = none
  ∧ (b = state.remote → state.values.length = 1 ∨ state.Delivered (state.values.length - 1))

/-- What a worker is about to do loses no link: its walk ends as it should; a review of its own
hop alone is delivered while the skip marker of the tip stands; and the skip marker is removed
unless the ref was pushed to the tip again since the delivery.
-/
def HookWorker.Unbroken [DecidableEq Sha] (git : Git Sha) (state : HookState Sha)
    (worker : HookWorker Sha) : Prop :=
  match worker.stage with
  | .walking hops =>
      foldNext git state.skipped worker.tip worker.base hops = none
      → WalkEnds state worker.base
  | .delivering _ => worker.backlog = true → state.skipped worker.tip ≠ none
  | .settling seen =>
      worker.backlog = false
      → ∀ k < state.values.length, state.values[k]? = some worker.tip → k < seen
  | _ => True

/-- The step loses no link of the chain of skip markers. -/
def Unbroken [DecidableEq Sha] (git : Git Sha) (state : HookState Sha) : HookAction Sha → Prop
  | .hop =>
      match state.front with
      | .walking localsha b hops =>
          foldNext git state.skipped localsha b hops = none → WalkEnds state b
      | _ => True
  | .proceed index => ∀ worker ∈ state.workers[index]?, worker.Unbroken git state
  | _ => True

-- The invariant

/-- The base of a worker in this stage is one that a walk ended at. -/
def HookStage.folded : HookStage → Bool
  | .walking _ | .exited => false
  | _ => true

/-- A worker reviews from a value of the ref, below which every hop is delivered unless the
worker walks or has fallen back.
-/
structure HookWorker.Sound (state : HookState Sha) (worker : HookWorker Sha) : Prop where
  own : worker.origBase ∈ state.values
  base : worker.base ∈ state.values
  folded
    : worker.backlog = false
      → worker.stage.folded = true
      → ∃ i, state.values[i]? = some worker.base ∧ state.Settled i
  settled
    : ∀ seen,
        worker.stage = .settling seen
        → seen ≤ state.values.length
          ∧ (worker.backlog = false
            → ∀ k < seen, state.values[k]? = some worker.tip → state.Settled k)

/-- The value that a push is made from has a skip marker, or every hop up to it is delivered. -/
def HookState.Linked (state : HookState Sha) : Prop :=
  state.skipped state.remote ≠ none ∨ state.Settled (state.values.length - 1)

/-- What the FRONT that is under way has found so far. -/
def Front.Sound (state : HookState Sha) : Front Sha → Prop
  | .idle => True
  | .walking _ b _ => b ∈ state.values ∧ (b = state.remote ∨ state.Linked)
  | .sent _ => state.Linked

/-- Each value of the ref that a push was made from has its skip marker, or every hop up to it
is delivered.
-/
structure HookState.Traced (state : HookState Sha) : Prop where
  unborn : state.standing = false → state.values.length = 1
  last : state.values[state.values.length - 1]? = some state.remote
  markers : ∀ sha, ∀ content ∈ state.skipped sha, content ∈ state.values
  linked
    : ∀ k value,
        state.values[k]? = some value
        → state.skipped value = none
        → k + 1 < state.values.length
          ∨ k + 1 = state.values.length ∧ (k = 0 ∨ state.Delivered k)
        → state.Settled k
  seen : ∀ delivery ∈ state.deliveries, delivery.seen ≤ state.values.length
  kept : state.HopsKept
  newest : state.newest.1 ≤ state.values.length
  complete : state.DeliveriesComplete
  front : state.front.Sound state
  workers : ∀ worker ∈ state.workers, worker.Sound state

variable {k : Nat}

section Onward

variable {state later : HookState Sha}

/-- The ref was pushed on, and verdicts were added. -/
structure HookState.Onward (state later : HookState Sha) : Prop where
  values : ∃ more, later.values = state.values ++ more
  deliveries : state.deliveries ⊆ later.deliveries

/-- Nothing is lost where values and deliveries stay. -/
theorem HookState.Onward.same (values : later.values = state.values)
    (deliveries : later.deliveries = state.deliveries)
    : state.Onward later where
  values := ⟨[], by rw [values, List.append_nil]⟩
  deliveries := by rw [deliveries]; exact List.Subset.refl _

/-- A value keeps its place. -/
theorem HookState.Onward.value (onward : state.Onward later) (bound : k < state.values.length)
    : later.values[k]? = state.values[k]? := by
  obtain ⟨more, same⟩ := onward.values
  rw [same, List.getElem?_append_left bound]

/-- What was found at a place still is. -/
theorem HookState.Onward.found (onward : state.Onward later) {value : Sha}
    (found : state.values[k]? = some value)
    : later.values[k]? = some value := by
  obtain ⟨bound, _⟩ := List.getElem?_eq_some_iff.mp found
  exact (onward.value bound).trans found

/-- A value of the ref stays one. -/
theorem HookState.Onward.mem (onward : state.Onward later) {value : Sha}
    (mem : value ∈ state.values)
    : value ∈ later.values := by
  obtain ⟨more, same⟩ := onward.values
  rw [same]
  exact List.mem_append_left _ mem

/-- What is delivered stays so. -/
theorem HookState.Delivered.onward {hop : Nat} (delivered : state.Delivered hop)
    (onward : state.Onward later)
    : later.Delivered hop := by
  obtain ⟨delivery, mem, i, before, k, seen, reaches, base, tip⟩ := delivered
  exact ⟨delivery, onward.deliveries mem, i, before, k, seen, reaches, onward.found base,
    onward.found tip⟩

/-- What is settled stays so. -/
theorem HookState.Settled.onward {last : Nat} (settled : state.Settled last)
    (onward : state.Onward later)
    : later.Settled last :=
  fun hop first up => (settled hop first up).onward onward

/-- A worker stays sound while the state goes on. -/
theorem HookWorker.Sound.onward {worker : HookWorker Sha} (sound : worker.Sound state)
    (onward : state.Onward later)
    : worker.Sound later where
  own := onward.mem sound.own
  base := onward.mem sound.base
  folded whole walked := by
    obtain ⟨i, found, settled⟩ := sound.folded whole walked
    exact ⟨i, onward.found found, settled.onward onward⟩
  settled seen settling := by
    obtain ⟨bound, settled⟩ := sound.settled seen settling
    obtain ⟨more, same⟩ := onward.values
    refine ⟨?_, fun whole k before found => ?_⟩
    · rw [same, List.length_append]
      exact Nat.le_add_right_of_le bound
    · rw [onward.value (Nat.lt_of_lt_of_le before bound)] at found
      exact (settled whole k before found).onward onward

/-- A worker that goes on with the same base claims as much of it as before, or less. -/
theorem HookWorker.Sound.goesOn {worker : HookWorker Sha} (sound : worker.Sound state)
    {stage : HookStage}
    (folded : stage.folded = true → worker.stage.folded = true)
    (unsettled : ∀ seen, stage ≠ .settling seen)
    : ({ worker with stage := stage } : HookWorker Sha).Sound state where
  own := sound.own
  base := sound.base
  folded whole walked := sound.folded whole (folded walked)
  settled seen settling := absurd settling (unsettled seen)

end Onward

-- What each change keeps

namespace HookState.Traced

section Changes

variable [DecidableEq Sha] {state : HookState Sha} {worker : HookWorker Sha} {tip content : Sha}

omit [DecidableEq Sha] in
/-- A worker goes to a sound stage. -/
theorem setWorker (traced : state.Traced) (index : Nat) (sound : worker.Sound state)
    : (state.setWorker index worker).Traced where
  unborn := traced.unborn
  last := traced.last
  markers := traced.markers
  linked := traced.linked
  seen := traced.seen
  kept := traced.kept
  newest := traced.newest
  complete := traced.complete
  front := traced.front
  workers other mem := by
    rcases List.mem_or_eq_of_mem_set mem with mem | rfl
    · exact (traced.workers other mem).onward (.same rfl rfl)
    · exact sound.onward (.same rfl rfl)

/-- A tip is marked as done. -/
theorem markDone (traced : state.Traced) : (state.markDone tip).Traced where
  unborn := traced.unborn
  last := traced.last
  markers := traced.markers
  linked := traced.linked
  seen := traced.seen
  kept := traced.kept
  newest := traced.newest
  complete := traced.complete
  front := traced.front
  workers other mem := (traced.workers other mem).onward (.same rfl rfl)

omit [DecidableEq Sha] in
/-- Whatever FRONT has found, it still has when its link stays. -/
theorem front_onward {later : HookState Sha} (traced : state.Traced)
    (front : later.front = state.front) (onward : state.Onward later)
    (remote : later.remote = state.remote)
    (linked : state.Linked → later.Linked)
    : later.front.Sound later := by
  have sound := traced.front
  rw [front]
  cases found : state.front with
  | idle => trivial
  | walking localsha b hops =>
      rw [found] at sound
      obtain ⟨mem, link⟩ := sound
      exact ⟨onward.mem mem, link.imp (fun same => same.trans remote.symm) linked⟩
  | sent localsha =>
      rw [found] at sound
      exact linked sound

/-- A skip marker names a value of the ref. -/
theorem writeSkipMarker (traced : state.Traced) (mem : content ∈ state.values)
    : (state.writeSkipMarker tip content).Traced where
  unborn := traced.unborn
  last := traced.last
  markers sha other there := by
    simp only [HookState.writeSkipMarker, Function.update_apply] at there
    split at there
    · exact Option.some.inj there ▸ mem
    · exact traced.markers sha other there
  linked k value found absent := by
    simp only [HookState.writeSkipMarker, Function.update_apply] at absent
    split at absent
    · cases absent
    · exact traced.linked k value found absent
  seen := traced.seen
  kept := traced.kept
  newest := traced.newest
  complete := traced.complete
  front := by
    refine traced.front_onward rfl (.same rfl rfl) rfl (Or.imp_left fun linked => ?_)
    simp only [HookState.writeSkipMarker, Function.update_apply]
    split
    · exact Option.some_ne_none _
    · exact linked
  workers other there := (traced.workers other there).onward (.same rfl rfl)

omit [DecidableEq Sha] in
/-- The hook goes to a sound place. -/
theorem setFront (traced : state.Traced) {front : Front Sha} (sound : front.Sound state)
    : ({ state with front := front } : HookState Sha).Traced where
  unborn := traced.unborn
  last := traced.last
  markers := traced.markers
  linked := traced.linked
  seen := traced.seen
  kept := traced.kept
  newest := traced.newest
  complete := traced.complete
  front := by cases front <;> exact sound
  workers other mem := (traced.workers other mem).onward (.same rfl rfl)

/-- A marker can go when every hop up to its tip is delivered. -/
theorem removeSkipMarker (traced : state.Traced)
    (settled : ∀ k : Nat, state.values[k]? = some tip → state.Settled k)
    : (state.removeSkipMarker tip).Traced where
  unborn := traced.unborn
  last := traced.last
  markers sha other there := by
    simp only [HookState.removeSkipMarker, Function.update_apply] at there
    split at there
    · cases there
    · exact traced.markers sha other there
  linked k value found absent := by
    simp only [HookState.removeSkipMarker, Function.update_apply] at absent
    split at absent
    · rename_i same
      exact fun _ => settled k (same ▸ found)
    · exact traced.linked k value found absent
  seen := traced.seen
  kept := traced.kept
  newest := traced.newest
  complete := traced.complete
  front := by
    refine traced.front_onward rfl (.same rfl rfl) rfl (fun linked => ?_)
    by_cases same : state.remote = tip
    · exact Or.inr (settled _ (same ▸ traced.last))
    · refine linked.imp_left (fun linked => ?_)
      simpa only [HookState.removeSkipMarker, Function.update_of_ne same] using linked
  workers other there := (traced.workers other there).onward (.same rfl rfl)

omit [DecidableEq Sha] in
/-- Where a walk ends as it should, every hop further down is delivered. -/
theorem settled_of_walkEnds (traced : state.Traced) {b : Sha} (ends : WalkEnds state b)
    (found : state.values[k]? = some b)
    : state.Settled k := by
  obtain ⟨bound, _⟩ := List.getElem?_eq_some_iff.mp found
  refine traced.linked k b found ends.1 ?_
  by_cases last : k + 1 = state.values.length
  · have position : state.values.length - 1 = k := by omega
    have same : b = state.remote := by
      have here := traced.last
      rw [position, found] at here
      exact Option.some.inj here
    refine Or.inr ⟨last, (ends.2 same).imp (fun alone => ?_) (fun delivered => ?_)⟩
    · omega
    · exact position ▸ delivered
  · exact Or.inl (by omega)

omit [DecidableEq Sha] in
/-- A delivery loses nothing. -/
theorem onward_deliver : state.Onward (state.deliver worker) where
  values := ⟨[], (List.append_nil _).symm⟩
  deliveries := List.subset_append_left _ _

omit [DecidableEq Sha] in
/-- A review that started where a walk ended leaves no hop up to its tip undelivered. -/
theorem settled_deliver (folded : ∃ i, state.values[i]? = some worker.base ∧ state.Settled i)
    (found : state.values[k]? = some worker.tip)
    : (state.deliver worker).Settled k := by
  obtain ⟨i, base, settled⟩ := folded
  obtain ⟨bound, _⟩ := List.getElem?_eq_some_iff.mp found
  intro hop first up
  by_cases below : hop ≤ i
  · exact (settled hop first below).onward onward_deliver
  · exact ⟨_, List.mem_append_right _ (List.mem_singleton.mpr rfl), i, Nat.lt_of_not_le below, k,
      bound, up, base, found⟩

omit [DecidableEq Sha] in
/-- A delivery is complete, or its backlog is marked. -/
theorem deliver (traced : state.Traced)
    (folded
      : worker.backlog = false
        → ∃ i, state.values[i]? = some worker.base ∧ state.Settled i)
    (marked : worker.backlog = true → state.skipped worker.tip ≠ none)
    : (state.deliver worker).Traced where
  unborn := traced.unborn
  last := traced.last
  markers := traced.markers
  linked k value found absent position := by
    have before (old : k + 1 < state.values.length
        ∨ k + 1 = state.values.length ∧ (k = 0 ∨ state.Delivered k))
        : (state.deliver worker).Settled k :=
      (traced.linked k value found absent old).onward onward_deliver
    rcases position with earlier | ⟨last, first | delivered⟩
    · exact before (Or.inl earlier)
    · exact before (Or.inr ⟨last, Or.inl first⟩)
    obtain ⟨delivery, mem, i, below, top, seen, reaches, base, tip⟩ := delivered
    rcases List.mem_append.mp mem with old | new
    · exact before (Or.inr ⟨last, Or.inr
        ⟨delivery, old, i, below, top, seen, reaches, base, tip⟩⟩)
    -- The new verdict is for the hop that brought the ref to its value.
    · rw [List.mem_singleton.mp new] at seen tip
      have same : top = k := by
        change k + 1 = state.values.length at last
        change top < state.values.length at seen
        omega
      subst same
      have own : value = worker.tip := Option.some.inj (found.symm.trans tip)
      cases fell : worker.backlog with
      | false => exact settled_deliver (folded fell) (own ▸ found)
      | true => exact absurd (own ▸ absent) (marked fell)
  seen delivery mem := by
    rcases List.mem_append.mp mem with old | new
    · exact traced.seen delivery old
    · exact List.mem_singleton.mp new ▸ Nat.le_refl _
  kept hop first before :=
    (traced.kept hop first before).imp_left (fun delivered => delivered.onward onward_deliver)
  newest := traced.newest
  complete delivery mem whole k before found := by
    rcases List.mem_append.mp mem with old | new
    · exact (traced.complete delivery old whole k before found).onward onward_deliver
    · rw [List.mem_singleton.mp new] at whole found
      exact settled_deliver (folded whole) found
  front :=
    traced.front_onward rfl onward_deliver rfl
      (Or.imp_right fun settled => settled.onward onward_deliver)
  workers other there := (traced.workers other there).onward onward_deliver

omit [DecidableEq Sha] in
/-- A worker starts from where the walk of its FRONT has ended. -/
theorem spawn (traced : state.Traced) {localsha b : Sha} (linked : state.Linked) {i : Nat}
    (found : state.values[i]? = some b) (settled : state.Settled i)
    : (state.spawn localsha b).Traced where
  unborn := traced.unborn
  last := traced.last
  markers := traced.markers
  linked := traced.linked
  seen := traced.seen
  kept hop first before := by
    by_cases below : hop ≤ i
    · exact Or.inl (settled hop first below)
    · exact Or.inr ⟨i, Nat.lt_of_not_le below, found⟩
  newest := Nat.le_refl _
  complete := traced.complete
  front := linked
  workers other there := by
    rcases List.mem_append.mp there with old | new
    · exact (traced.workers other old).onward (.same rfl rfl)
    · rw [List.mem_singleton.mp new]
      exact {
        own := List.mem_of_getElem? traced.last
        base := List.mem_of_getElem? found
        folded := fun _ _ => ⟨i, found, settled⟩
        settled := fun _ settling => by cases settling
      }

omit [DecidableEq Sha] in
/-- An accepted push loses nothing. -/
theorem onward_accept (localsha : Sha)
    : state.Onward {
        state with
        values := state.values ++ [localsha],
        remote := localsha,
        standing := true,
        front := .idle
      } where
  values := ⟨[localsha], rfl⟩
  deliveries := List.Subset.refl _

omit [DecidableEq Sha] in
/-- No verdict was delivered yet for the hop of a push that the remote has just taken. -/
theorem accept (traced : state.Traced) {localsha : Sha} (linked : state.Linked)
    : ({
        state with
        values := state.values ++ [localsha],
        remote := localsha,
        standing := true,
        front := .idle
      } : HookState Sha).Traced := by
  have onward
      : state.Onward {
          state with
          values := state.values ++ [localsha],
          remote := localsha,
          standing := true,
          front := .idle
        } :=
    onward_accept localsha
  have nonempty : 0 < state.values.length := by
    obtain ⟨bound, _⟩ := List.getElem?_eq_some_iff.mp traced.last
    omega
  exact {
    unborn := fun unborn => by cases unborn
    last := by simp
    markers := fun sha content there => onward.mem (traced.markers sha content there)
    linked := fun k value found absent position => by
      simp only [List.length_append, List.length_singleton] at position
      by_cases old : k < state.values.length
      · rw [onward.value old] at found
        by_cases last : k + 1 < state.values.length
        · exact (traced.linked k value found absent (Or.inl last)).onward onward
        · have same : state.values.length - 1 = k := by omega
          have value : value = state.remote := by
            have here := traced.last
            rw [same, found] at here
            exact Option.some.inj here
          subst value
          exact same ▸ (linked.resolve_left (fun marked => marked absent)).onward onward
      · obtain ⟨_, first | delivered⟩ := position.resolve_left (by omega)
        · omega
        obtain ⟨delivery, mem, _, _, top, before, reaches, _⟩ := delivered
        have seen := traced.seen delivery mem
        omega
    seen := fun delivery mem => by
      rw [List.length_append]
      exact Nat.le_add_right_of_le (traced.seen delivery mem)
    kept := fun hop first before => by
      rcases traced.kept hop first before with delivered | ⟨i, below, found⟩
      · exact Or.inl (delivered.onward onward)
      · exact Or.inr ⟨i, below, onward.found found⟩
    newest := by
      rw [List.length_append]
      exact Nat.le_add_right_of_le traced.newest
    complete := fun delivery mem whole k before found => by
      rw [onward.value (Nat.lt_of_lt_of_le before (traced.seen delivery mem))] at found
      exact (traced.complete delivery mem whole k before found).onward onward
    front := trivial
    workers := fun worker there => (traced.workers worker there).onward onward
  }

end Changes

-- What each step keeps

section Steps

variable [DecidableEq Sha] {git : Git Sha} {state later : HookState Sha}

/-- A push comes to the hook. -/
theorem push (traced : state.Traced) {localsha : Sha}
    (taken : state.push localsha = some later)
    : later.Traced := by
  unfold HookState.push at taken
  split at taken
  · split at taken
    · cases taken
    split at taken
    · cases taken
      exact traced.setFront ⟨List.mem_of_getElem? traced.last, Or.inl rfl⟩
    -- The first push of the ref has no hop before it.
    · rename_i unborn
      cases taken
      have alone := traced.unborn (Bool.eq_false_iff.mpr unborn)
      have settled : state.Settled (state.values.length - 1) := fun hop first up => by omega
      exact traced.spawn (Or.inr settled) traced.last settled
  · cases taken

/-- The hook looks one hop further back. -/
theorem hop (traced : state.Traced) (unbroken : Unbroken git state .hop)
    (taken : state.hop git = some later)
    : later.Traced := by
  have sound := traced.front
  unfold HookState.hop at taken
  unfold Unbroken at unbroken
  cases front : state.front with
  | idle =>
      rw [front] at taken
      cases taken
  | sent localsha =>
      rw [front] at taken
      cases taken
  | walking localsha b hops =>
      rw [front] at taken unbroken sound
      obtain ⟨mem, link⟩ := sound
      cases next : foldNext git state.skipped localsha b hops with
      | none =>
          simp only [next, Option.some.injEq] at taken unbroken
          subst taken
          obtain ⟨i, found⟩ := List.getElem?_of_mem mem
          have settled {k : Nat} (found : state.values[k]? = some b) : state.Settled k :=
            traced.settled_of_walkEnds (unbroken trivial) found
          refine traced.spawn ?_ found (settled found)
          rcases link with rfl | linked
          · exact Or.inr (settled traced.last)
          · exact linked
      | some goesOn =>
          obtain ⟨prev, left⟩ := goesOn
          simp only [next, Option.some.injEq] at taken
          subst taken
          have marked := foldNext_marked next
          refine traced.setFront ⟨traced.markers b prev marked, Or.inr ?_⟩
          rcases link with rfl | linked
          · exact Or.inl (by simp [marked])
          · exact linked

omit [DecidableEq Sha] in
/-- The remote accepts or refuses. -/
theorem answer (traced : state.Traced) {accepted : Bool}
    (taken : state.answer accepted = some later)
    : later.Traced := by
  have sound := traced.front
  unfold HookState.answer at taken
  split at taken
  · split at taken
    · rename_i front
      cases taken
      rw [front] at sound
      exact traced.accept sound
    · cases taken
  · split at taken
    · cases taken
    · cases taken
      exact traced.setFront trivial

/-- A worker goes on, from each of its stages. -/
theorem proceed (traced : state.Traced) {index : Nat} {worker : HookWorker Sha}
    (sound : worker.Sound state) (unbroken : worker.Unbroken git state)
    (taken : state.proceed git index worker = some later)
    : later.Traced := by
  unfold HookState.proceed at taken
  unfold HookWorker.Unbroken at unbroken
  cases stage : worker.stage with
  | starting =>
      simp only [stage, Option.some.injEq] at taken
      subst taken
      exact traced.setWorker index (sound.goesOn (fun _ => by simp [stage, HookStage.folded])
        (fun _ => by simp))
  | contended =>
      simp only [stage, Option.some.injEq] at taken
      subst taken
      exact (traced.writeSkipMarker sound.base).setWorker index
        ((sound.goesOn (by simp [HookStage.folded]) (fun _ => by simp)).onward (.same rfl rfl))
  | locked =>
      simp only [stage, Option.some.injEq] at taken
      subst taken
      refine traced.setWorker index (sound.goesOn (fun folded => ?_) (fun _ => ?_))
      · split at folded <;> cases folded
      · split <;> simp
  | walking hops =>
      simp only [stage] at taken unbroken
      cases next : foldNext git state.skipped worker.tip worker.base hops with
      | some goesOn =>
          obtain ⟨prev, left⟩ := goesOn
          simp only [next, Option.some.injEq] at taken
          subst taken
          exact traced.setWorker index {
            own := sound.own
            base := traced.markers worker.base prev (foldNext_marked next)
            folded := fun _ walked => by cases walked
            settled := fun _ settling => by cases settling
          }
      | none =>
          simp only [next, Option.some.injEq] at taken
          subst taken
          obtain ⟨i, found⟩ := List.getElem?_of_mem sound.base
          exact traced.setWorker index {
            own := sound.own
            base := sound.base
            folded := fun _ _ => ⟨i, found, traced.settled_of_walkEnds (unbroken next) found⟩
            settled := fun _ settling => by cases settling
          }
  | recording =>
      simp only [stage, Option.some.injEq] at taken
      subst taken
      exact (traced.writeSkipMarker sound.own).setWorker index
        ((sound.goesOn (fun _ => by simp [stage, HookStage.folded]) (fun _ => by simp)).onward
          (.same rfl rfl))
  | reviewing =>
      simp only [stage, Option.some.injEq] at taken
      subst taken
      exact traced.setWorker index (sound.goesOn (fun _ => by simp [stage, HookStage.folded])
        (fun _ => by simp))
  | confirming =>
      simp only [stage, Option.some.injEq] at taken
      subst taken
      exact traced.setWorker index (sound.goesOn (fun _ => by simp [stage, HookStage.folded])
        (fun _ => by simp))
  | delivering pushed =>
      simp only [stage, Option.some.injEq] at taken unbroken
      subst taken
      have folded (whole : worker.backlog = false) :=
        sound.folded whole (by simp [stage, HookStage.folded])
      refine (traced.deliver folded unbroken).setWorker index ?_
      exact {
        own := sound.own
        base := sound.base
        folded := fun whole _ => by
          obtain ⟨i, found, settled⟩ := folded whole
          exact ⟨i, found, settled.onward onward_deliver⟩
        settled := fun seen settling => by
          simp only at settling
          split at settling
          · cases settling
            refine ⟨Nat.le_refl _, fun whole k _ found => ?_⟩
            exact settled_deliver (folded whole) found
          · cases settling
      }
  | settling seen =>
      simp only [stage] at taken unbroken
      split at taken
      · simp only [Option.some.injEq] at taken
        subst taken
        exact (traced.writeSkipMarker sound.own).setWorker index
          ((sound.goesOn (fun _ => by simp [stage, HookStage.folded]) (fun _ => by simp)).onward
            (.same rfl rfl))
      · rename_i whole
        have whole := Bool.eq_false_iff.mpr whole
        simp only [Option.some.injEq] at taken
        subst taken
        refine (traced.removeSkipMarker fun k found => ?_).setWorker index
          ((sound.goesOn (fun _ => by simp [stage, HookStage.folded]) (fun _ => by simp)).onward
            (.same rfl rfl))
        obtain ⟨bound, _⟩ := List.getElem?_eq_some_iff.mp found
        exact (sound.settled seen stage).2 whole k (unbroken whole k bound found) found
  | marking =>
      simp only [stage, Option.some.injEq] at taken
      subst taken
      exact traced.markDone.setWorker index
        ((sound.goesOn (by simp [HookStage.folded]) (fun _ => by simp)).onward (.same rfl rfl))
  | exited =>
      simp only [stage] at taken
      cases taken

omit [DecidableEq Sha] in
/-- A worker fails, and leaves its stage. -/
theorem fail (traced : state.Traced) {index : Nat} {worker : HookWorker Sha}
    (sound : worker.Sound state) {stage : HookStage}
    (failed : HookState.afterFailure worker.stage = some stage)
    : (state.setWorker index { worker with stage := stage }).Traced := by
  unfold HookState.afterFailure at failed
  refine traced.setWorker index (sound.goesOn ?_ ?_)
  all_goals
    split at failed
    all_goals cases failed
    all_goals simp [*, HookStage.folded]

/-- Whatever a worker does. -/
theorem act (traced : state.Traced) {index : Nat} {worker : HookWorker Sha}
    (sound : worker.Sound state) {action : HookAction Sha}
    (unbroken : ∀ index, action = .proceed index → worker.Unbroken git state)
    (taken : state.act git index worker action = some later)
    : later.Traced := by
  cases action with
  | contend _ =>
      simp only [HookState.act] at taken
      split at taken
      · rename_i stage
        cases taken
        exact traced.setWorker index (sound.goesOn (fun _ => by simp [stage, HookStage.folded])
          (fun _ => by simp))
      · cases taken
  | proceed _ => exact traced.proceed sound (unbroken _ rfl) taken
  | fail _ =>
      simp only [HookState.act, Option.map_eq_some_iff] at taken
      obtain ⟨stage, failed, rfl⟩ := taken
      exact traced.fail sound failed
  | fallBack _ =>
      simp only [HookState.act] at taken
      split at taken
      · rename_i fallsBack
        cases taken
        exact traced.setWorker index {
          own := sound.own
          base := sound.own
          folded := fun whole _ => by cases whole
          settled := fun _ settling => by simp [fallsBack.1] at settling
        }
      · cases taken
  | exit _ =>
      cases taken
      exact traced.setWorker index (sound.goesOn (by simp [HookStage.folded]) (fun _ => by simp))
  | push _ => cases taken
  | hop => cases taken
  | answer _ => cases taken

end Steps

end HookState.Traced

variable [DecidableEq Sha] {git : Git Sha}

/-- Every action keeps all hops traced. -/
theorem traced_step (state later : HookState Sha) (action : HookAction Sha)
    (traced : state.Traced) (unbroken : Unbroken git state action)
    (taken : (hookMachine git).step action state = some later)
    : later.Traced := by
  have worker {index : Nat} (own : action.worker? = some index)
      (taken : (do
        let worker ← state.workers[index]?
        state.act git index worker action) = some later)
      : later.Traced := by
    obtain ⟨worker, found, taken⟩ := Option.bind_eq_some_iff.mp taken
    refine traced.act (traced.workers worker (List.mem_of_getElem? found)) ?_ taken
    rintro index' rfl
    cases own
    exact unbroken worker found
  cases action with
  | push localsha => exact traced.push taken
  | hop => exact traced.hop unbroken taken
  | answer accepted => exact traced.answer taken
  | contend index => exact worker rfl taken
  | proceed index => exact worker rfl taken
  | fail index => exact worker rfl taken
  | fallBack index => exact worker rfl taken
  | exit index => exact worker rfl taken

/-- In every run that loses no link, every hop before the newest push is delivered or folded
into its range, and a verdict whose worker did not fall back leaves nothing undelivered below
its tip.
-/
theorem fold_keeps_hops {state : HookState Sha}
    (run : (hookMachine git).Runs (Unbroken git) state)
    : state.HopsKept ∧ state.DeliveriesComplete := by
  have traced : state.Traced := by
    refine run.invariant (fun state initial => ?_) traced_step
    obtain ⟨values, unmarked, idle, newest, alone, undelivered⟩ := initial
    exact {
      unborn := fun _ => by simp [values]
      last := by simp [values]
      markers := fun sha content there => by simp [unmarked] at there
      linked := fun k value found _ _ hop first up => by
        have only : k < 1 := by
          obtain ⟨bound, _⟩ := List.getElem?_eq_some_iff.mp found
          simpa [values] using bound
        omega
      seen := fun delivery mem => by simp [undelivered] at mem
      kept := fun hop first before => by
        rw [newest] at before
        omega
      newest := by simp [newest, values]
      complete := fun delivery mem => by simp [undelivered] at mem
      front := by
        rw [idle]
        trivial
      workers := fun worker there => by simp [alone] at there
    }
  exact ⟨traced.kept, traced.complete⟩

-- Runs over four commits in a row

section Decide

instance (state : HookState Sha) (hop : Nat) : Decidable (state.Delivered hop) :=
  inferInstanceAs (Decidable (∃ delivery ∈ state.deliveries, ∃ i, i < hop ∧ ∃ k,
    k < delivery.seen ∧ hop ≤ k ∧ state.values[i]? = some delivery.base
      ∧ state.values[k]? = some delivery.tip))

instance (state : HookState Sha) (b : Sha) : Decidable (WalkEnds state b) :=
  inferInstanceAs (Decidable (state.skipped b = none ∧ (b = state.remote →
    state.values.length = 1 ∨ state.Delivered (state.values.length - 1))))

instance (state : HookState Sha)
    : (worker : HookWorker Sha) → Decidable (worker.Unbroken git state)
  | ⟨base, _, tip, _, .walking hops⟩ =>
      inferInstanceAs (Decidable (foldNext git state.skipped tip base hops = none
        → WalkEnds state base))
  | ⟨_, _, tip, backlog, .delivering _⟩ =>
      inferInstanceAs (Decidable (backlog = true → state.skipped tip ≠ none))
  | ⟨_, _, tip, backlog, .settling seen⟩ =>
      inferInstanceAs (Decidable (backlog = false
        → ∀ k < state.values.length, state.values[k]? = some tip → k < seen))
  | ⟨_, _, _, _, .starting⟩ | ⟨_, _, _, _, .contended⟩ | ⟨_, _, _, _, .locked⟩
  | ⟨_, _, _, _, .recording⟩ | ⟨_, _, _, _, .reviewing⟩ | ⟨_, _, _, _, .confirming⟩
  | ⟨_, _, _, _, .marking⟩ | ⟨_, _, _, _, .exited⟩ => isTrue trivial

instance : (state : HookState Sha) → (action : HookAction Sha)
    → Decidable (Unbroken git state action)
  | ⟨values, remote, standing, skipped, done, .walking localsha b hops, newest, workers,
      deliveries⟩, .hop =>
      inferInstanceAs (Decidable (foldNext git skipped localsha b hops = none
        → WalkEnds ⟨values, remote, standing, skipped, done, .walking localsha b hops, newest,
            workers, deliveries⟩ b))
  | ⟨_, _, _, _, _, .idle, _, _, _⟩, .hop | ⟨_, _, _, _, _, .sent _, _, _, _⟩, .hop =>
      isTrue trivial
  | state, .proceed index =>
      inferInstanceAs (Decidable (∀ worker ∈ state.workers[index]?, worker.Unbroken git state))
  | _, .push _ | _, .answer _ | _, .contend _ | _, .fail _ | _, .fallBack _ | _, .exit _ =>
      isTrue trivial

end Decide

def sampleGit : Git Nat := ⟨fun _ => true, fun _ => true, fun a b => a ≤ b⟩

def sampleRef : HookState Nat :=
  ⟨[0], 0, true, fun _ => none, fun _ => false, .idle, (1, 0), [], []⟩

/-- The first push is skipped, the second folds it in, and a third is made. -/
def sampleFold : List (HookAction Nat) :=
  [HookAction.push 1, .hop, .answer true, .contend 0, .proceed 0]
    ++ [HookAction.push 2, .hop, .hop, .answer true]
    ++ List.replicate 9 (HookAction.proceed 1)
    ++ [HookAction.push 3, .hop]

/-- The first worker is slow: the second, of the next push, delivers its own hop, and only then
does the first find the lock held.
-/
def sampleOvertaken : List (HookAction Nat) :=
  [HookAction.push 1, .hop, .answer true]
    ++ [HookAction.push 2, .hop, .answer true]
    ++ List.replicate 9 (HookAction.proceed 1)
    ++ [HookAction.contend 0, .proceed 0]
    ++ [HookAction.push 3, .hop]

/-- The sample is the end of a run. -/
theorem sampleRef_run (guard : HookState Nat → HookAction Nat → Prop)
    : (hookMachine sampleGit).Runs guard sampleRef :=
  .start ⟨rfl, fun _ => rfl, rfl, rfl, rfl, rfl⟩

theorem fold_keeps_hops_sample
    : ∃ state : HookState Nat,
        state.values = [0, 1, 2]
        ∧ state.newest = (3, 2)
        ∧ state.HopsKept
        ∧ state.DeliveriesComplete := by
  have played
      : ((hookMachine sampleGit).play (Unbroken sampleGit) sampleFold sampleRef).any
          (fun state => state.values = [0, 1, 2] ∧ state.newest = (3, 2))
        = true := by
    decide
  obtain ⟨state, played, holds⟩ := (Option.any_eq_true ..).mp played
  obtain ⟨values, newest⟩ := of_decide_eq_true holds
  exact ⟨state, values, newest, fold_keeps_hops ((sampleRef_run _).play sampleFold played)⟩

/-- The marker of the overtaken worker stands, and no walk comes to it: every worker but the
newest has exited, and the first hop is neither delivered nor folded in.
-/
theorem overtaken_hop_lost
    : ∃ state : HookState Nat,
        (hookMachine sampleGit).Runs (fun _ _ => True) state
        ∧ (∀ worker ∈ state.workers.dropLast, worker.stage = .exited)
        ∧ state.skipped 1 = some 0
        ∧ ¬state.HopsKept := by
  have played
      : ((hookMachine sampleGit).play (fun _ _ => True) sampleOvertaken sampleRef).any
          (fun state =>
            (∀ worker ∈ state.workers.dropLast, worker.stage = .exited)
            ∧ state.skipped 1 = some 0
            ∧ state.newest = (3, 2)
            ∧ state.values = [0, 1, 2]
            ∧ ¬state.Delivered 1)
        = true := by
    decide
  obtain ⟨state, played, holds⟩ := (Option.any_eq_true ..).mp played
  obtain ⟨exited, marked, newest, values, undelivered⟩ := of_decide_eq_true holds
  refine ⟨state, (sampleRef_run _).play _ played, exited, marked, fun kept => ?_⟩
  rcases kept 1 (Nat.le_refl _) (by simp [newest]) with delivered | ⟨i, before, found⟩
  · exact undelivered delivered
  · obtain rfl : i = 0 := by omega
    simp [values, newest] at found

end Review
