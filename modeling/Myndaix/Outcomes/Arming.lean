import Myndaix.Outcomes.Dial

/-! When the dial may be armed for a cell: what it said in several weeks, and the labels that came
after it had said so.
-/

namespace Outcomes

variable {Rate : Type}

/-- A row of `dial_shadow_snapshot`: a cell, and the policy that it was classified under. Times are
in microseconds.
-/
structure Snapshot (Rate : Type) extends Cell Rate where
  capturedAt : Time
  dataCutoffSeq : Nat
  policy : ShadowParams Rate
deriving DecidableEq

/-- What `eval_arming` reports, with the gates it has come to. -/
structure Arming (Rate : Type) where
  wouldSuppressSnaps : Nat
  gates : List (String × Bool)
  eligible : Bool
  cohortN : Nat
  cohortFp : Nat
  agreeRate : Option Rate
  agreeLo : Option Rate
deriving DecidableEq, Repr

-- The snapshots

/-- The number of the week, which begins on a Monday. -/
def isoWeek (time : Time) : Int :=
  (time / 86400000000 + 3) / 7

def byCapture (snaps : List (Snapshot Rate)) : List (Snapshot Rate) :=
  snaps.mergeSort (fun snap later => snap.capturedAt ≤ later.capturedAt)

def latestOf (snaps : List (Snapshot Rate)) : Option (Snapshot Rate) :=
  (byCapture snaps).getLast?

/-- The snapshots that would suppress the cell. -/
def wsSnaps (snaps : List (Snapshot Rate)) : List (Snapshot Rate) :=
  (byCapture snaps).filter (fun snap => snap.wouldSay = .wouldSuppress)

/-- `max(int(s["data_cutoff_seq"]) for s in ws_snaps)`. -/
def cohortCutoff (snaps : List (Snapshot Rate)) : Nat :=
  ((wsSnaps snaps).map Snapshot.dataCutoffSeq).max?.getD 0

def stableOver (latest : Snapshot Rate) (snaps : List (Snapshot Rate)) : Bool :=
  let weeks := ((wsSnaps snaps).map (fun snap => isoWeek snap.capturedAt)).dedup
  latest.policy.stableSnaps ≤ (wsSnaps snaps).length && latest.policy.stableSnaps ≤ weeks.length

/-- Both intervals of the latest snapshot lie below its floor. -/
def bothWindows [LinearOrder Rate] (latest : Snapshot Rate) : Bool :=
  latest.wilsonHi.any (fun hi => hi < latest.policy.floor)
    && latest.wilsonRecentHi.any (fun hi => hi < latest.policy.floor)

-- The cohort

/-- The precision labels that came after the newest prediction. -/
def cohortOf (snaps : List (Snapshot Rate)) (rows : List DialLabel) : List DialLabel :=
  rows.filter (fun row => cohortCutoff snaps < row.seq && row.isIncluded)

def countFp (labels : List DialLabel) : Nat :=
  labels.countP (fun label => label.pairClass = .fp)

def cohortSuffices (latest : Snapshot Rate) (cohort : List DialLabel) : Bool :=
  latest.policy.evalMinN ≤ cohort.length
    && latest.policy.minRefs ≤ distinctTexts (cohort.map DialLabel.ref)
    && latest.policy.minPlays ≤ distinctTexts (cohort.map DialLabel.play)
    && latest.policy.minFp ≤ countFp cohort

section Evaluation

variable [LinearOrder Rate] (numerics : Numerics Rate)

def agreementOf (latest : Snapshot Rate) (cohort : List DialLabel) : Option (Rate × Rate) :=
  wilson numerics (countFp cohort) cohort.length latest.policy.z

def evalArming (snaps : List (Snapshot Rate)) (rows : List DialLabel) : Arming Rate :=
  match latestOf snaps, wsSnaps snaps with
  | some latest, _ :: _ =>
      let cohort := cohortOf snaps rows
      let stability := stableOver latest snaps
      let windows := bothWindows latest
      let enough := cohortSuffices latest cohort
      let interval := agreementOf numerics latest cohort
      let agreement := interval.any (fun bounds => latest.policy.evalAgree ≤ bounds.1)
      {
        wouldSuppressSnaps := (wsSnaps snaps).length
        gates :=
          [ ("stability", stability), ("both_windows", windows), ("cohort", enough),
            ("agreement", agreement), ("nonempty_cohort", 0 < cohort.length) ]
        eligible := stability && windows && enough && agreement && 0 < cohort.length
        cohortN := cohort.length
        cohortFp := countFp cohort
        agreeRate := precisionOf numerics (countFp cohort) cohort.length
        agreeLo := interval.map Prod.fst
      }
  | _, _ =>
      {
        wouldSuppressSnaps := (wsSnaps snaps).length
        gates := [("stability", false)]
        eligible := false
        cohortN := 0
        cohortFp := 0
        agreeRate := none
        agreeLo := none
      }

end Evaluation

-- What eligibility needs

section Soundness

variable [LinearOrder Rate] {numerics : Numerics Rate}
variable {snaps : List (Snapshot Rate)} {latest : Snapshot Rate} {rows : List DialLabel}

/-- An eligible cell is one that the latest snapshot would suppress, by labels that no snapshot
has seen.
-/
def Sound (numerics : Numerics Rate) (snaps : List (Snapshot Rate))
    (rows : List DialLabel) : Prop :=
  (evalArming numerics snaps rows).eligible = true
  → (∀ latest ∈ latestOf snaps, latest.wouldSay = .wouldSuppress)
    ∧ ∀ label ∈ cohortOf snaps rows, ∀ snap ∈ snaps, snap.dataCutoffSeq < label.seq

/-- Some cohort of this size, with so many dismissals in it, reaches the bars of the policy. -/
structure Reaches (numerics : Numerics Rate) (policy : ShadowParams Rate) (n fp : Nat) : Prop where
  some : 0 < n
  part : fp ≤ n
  size : policy.evalMinN ≤ n
  refs : policy.minRefs ≤ n
  plays : policy.minPlays ≤ n
  dismissals : policy.minFp ≤ fp
  agreement : policy.evalAgree ≤ (numerics.interval fp n policy.z).1

/-- The snapshots leave it to the labels whether the cell is armed. -/
structure Armable (numerics : Numerics Rate) (snaps : List (Snapshot Rate)) (latest : Snapshot Rate)
    : Prop where
  isLatest : latestOf snaps = some latest
  suppressed : wsSnaps snaps ≠ []
  stable : stableOver latest snaps = true
  windows : bothWindows latest = true
  reachable : ∃ n fp, Reaches numerics latest.policy n fp

theorem distinctTexts_le (texts : List (Option String)) : distinctTexts texts ≤ texts.length := by
  refine (List.Sublist.length_le (List.dedup_sublist _)).trans ?_
  exact (List.length_filter_le _ _).trans (List.length_filterMap_le _ _)

/-- The gates that are passed tell what the policy asks for. -/
theorem armable_of_eligible (eligible : (evalArming numerics snaps rows).eligible = true)
    : ∃ latest, Armable numerics snaps latest := by
  unfold evalArming at eligible
  split at eligible
  · rename_i latest first rest isLatest suppressed
    simp only [Bool.and_eq_true, decide_eq_true_eq] at eligible
    obtain ⟨⟨⟨⟨stable, windows⟩, enough⟩, agreement⟩, nonempty⟩ := eligible
    simp only [cohortSuffices, Bool.and_eq_true, decide_eq_true_eq] at enough
    obtain ⟨⟨⟨size, refs⟩, plays⟩, dismissals⟩ := enough
    rw [agreementOf, wilson, if_neg (Nat.ne_of_gt nonempty), Option.any_some, decide_eq_true_eq]
      at agreement
    refine ⟨latest, isLatest, by rw [suppressed]; exact List.cons_ne_nil _ _, stable, windows, _, _,
      nonempty, List.countP_le_length, size, ?_, ?_, dismissals, agreement⟩
    · exact refs.trans ((distinctTexts_le _).trans_eq (List.length_map _))
    · exact plays.trans ((distinctTexts_le _).trans_eq (List.length_map _))
  · cases eligible

-- A cohort that reaches the bars

/-- A text for each number. -/
def nthText (index : Nat) : String :=
  String.ofList (List.replicate (index + 1) 'x')

theorem nthText_injective : Function.Injective nthText := by
  intro index other same
  have lengths := congrArg (fun text : String => text.toList.length) same
  simpa [nthText] using lengths

/-- The label with this place in a cohort, in which so many dismissals come first. -/
def nthLabel (cutoff fp index : Nat) : DialLabel where
  ruleTag := "rule"
  family := .kilabz
  outcome := if index < fp then .dismissedFalsePositive else .confirmedReal
  source := if index < fp then .humanDismiss else .humanConfirm
  seq := cutoff + 1 + index
  ref := some (nthText index)
  play := some (nthText index)

def evidence (cutoff n fp : Nat) : List DialLabel :=
  (List.range n).map (nthLabel cutoff fp)

theorem nthLabel_pairClass (cutoff fp index : Nat)
    : (nthLabel cutoff fp index).pairClass = if index < fp then .fp else .real := by
  unfold DialLabel.pairClass nthLabel
  by_cases early : index < fp
  · simp only [if_pos early]
    rfl
  · simp only [if_neg early]
    rfl

theorem evidence_distinct (cutoff n fp : Nat)
    : ((evidence cutoff n fp).map DialLabel.seq).Nodup := by
  rw [evidence, List.map_map]
  refine List.Nodup.map (fun index other same => ?_) List.nodup_range
  exact Nat.add_left_cancel same

omit [LinearOrder Rate] in
theorem cohortOf_evidence (n fp : Nat)
    : cohortOf snaps (evidence (cohortCutoff snaps) n fp) = evidence (cohortCutoff snaps) n fp := by
  refine List.filter_eq_self.mpr fun label mem => ?_
  obtain ⟨index, -, rfl⟩ := List.mem_map.mp mem
  have later : cohortCutoff snaps < (nthLabel (cohortCutoff snaps) fp index).seq := by
    change cohortCutoff snaps < cohortCutoff snaps + 1 + index
    omega
  rw [DialLabel.isIncluded, nthLabel_pairClass]
  by_cases early : index < fp
  · simp [later, early]
  · simp [later, early]

theorem countFp_evidence {cutoff n fp : Nat} (part : fp ≤ n)
    : countFp (evidence cutoff n fp) = fp := by
  have early
      : (fun label : DialLabel => decide (label.pairClass = .fp)) ∘ nthLabel cutoff fp
        = fun index => decide (index < fp) := by
    funext index
    rw [Function.comp_apply, nthLabel_pairClass]
    by_cases early : index < fp
    · simp [early]
    · simp [early]
  rw [countFp, evidence, List.countP_map, early]
  obtain ⟨more, rfl⟩ := Nat.exists_eq_add_of_le part
  rw [List.range_add, List.countP_append, List.countP_map]
  have front : (List.range fp).countP (fun index => decide (index < fp)) = fp := by
    rw [List.countP_eq_length.mpr (fun index mem => by simpa using mem), List.length_range]
  have back : (List.range more).countP ((fun index => decide (index < fp)) ∘ (fp + ·)) = 0 :=
    List.countP_eq_zero.mpr (fun index _ => by simp)
  rw [front, back, Nat.add_zero]

theorem distinctTexts_evidence (cutoff n fp : Nat) (read : DialLabel → Option String)
    (reads : ∀ index, read (nthLabel cutoff fp index) = some (nthText index))
    : distinctTexts ((evidence cutoff n fp).map read) = n := by
  have texts : ((evidence cutoff n fp).map read).filterMap id = (List.range n).map nthText := by
    rw [evidence, List.map_map, List.filterMap_map]
    simp only [Function.comp_def, reads, id_eq]
    exact congrFun List.filterMap_eq_map' _
  have filled : ((List.range n).map nthText).filter (fun text => text ≠ "")
      = (List.range n).map nthText := by
    refine List.filter_eq_self.mpr fun text mem => ?_
    obtain ⟨index, -, rfl⟩ := List.mem_map.mp mem
    refine decide_eq_true fun empty => ?_
    have length := congrArg (fun text : String => text.toList.length) empty
    simp [nthText] at length
  rw [distinctTexts, texts, filled, List.dedup_eq_self.mpr
    (List.nodup_range.map nthText_injective), List.length_map, List.length_range]

theorem eligible_evidence (armable : Armable numerics snaps latest) {n fp : Nat}
    (reaches : Reaches numerics latest.policy n fp)
    : (evalArming numerics snaps (evidence (cohortCutoff snaps) n fp)).eligible = true := by
  obtain ⟨first, rest, suppressed⟩ := List.exists_cons_of_ne_nil armable.suppressed
  have length : (evidence (cohortCutoff snaps) n fp).length = n := by
    rw [evidence, List.length_map, List.length_range]
  have refs := distinctTexts_evidence (cohortCutoff snaps) n fp DialLabel.ref (fun _ => rfl)
  have plays := distinctTexts_evidence (cohortCutoff snaps) n fp DialLabel.play (fun _ => rfl)
  have fps : countFp (evidence (cohortCutoff snaps) n fp) = fp := countFp_evidence reaches.part
  have enough : cohortSuffices latest (evidence (cohortCutoff snaps) n fp) = true := by
    rw [cohortSuffices, length, refs, plays, fps]
    simp [reaches.size, reaches.refs, reaches.plays, reaches.dismissals]
  have interval
      : agreementOf numerics latest (evidence (cohortCutoff snaps) n fp)
        = some (numerics.interval fp n latest.policy.z) := by
    rw [agreementOf, wilson, length, fps, if_neg (Nat.ne_of_gt reaches.some)]
  simp only [evalArming, armable.isLatest, suppressed, cohortOf_evidence, armable.stable,
    armable.windows, enough, interval, length, Option.any_some, Bool.true_and, Bool.and_eq_true,
    decide_eq_true_eq]
  exact ⟨reaches.agreement, reaches.some⟩

-- When eligibility is sound

omit [LinearOrder Rate] in
theorem cohortOf_later {label : DialLabel} (mem : label ∈ cohortOf snaps rows)
    : cohortCutoff snaps < label.seq := by
  have counted := (List.mem_filter.mp mem).2
  exact of_decide_eq_true (Bool.and_eq_true_iff.mp counted).1

/-- Whatever the labels of the cell are, its eligibility is sound just where the latest snapshot of
an armable cell is one of those that would suppress it, and no snapshot has seen more labels than
those have.
-/
theorem evalArming_sound_iff (numerics : Numerics Rate) (snaps : List (Snapshot Rate))
    : (∀ rows : List DialLabel, (rows.map DialLabel.seq).Nodup → Sound numerics snaps rows)
      ↔ ∀ latest,
          Armable numerics snaps latest
          → latest.wouldSay = .wouldSuppress
            ∧ ∀ snap ∈ snaps, snap.dataCutoffSeq ≤ cohortCutoff snaps := by
  constructor
  · intro sound latest armable
    obtain ⟨n, fp, reaches⟩ := armable.reachable
    obtain ⟨suppresses, unseen⟩ :=
      sound _ (evidence_distinct _ n fp) (eligible_evidence armable reaches)
    refine ⟨suppresses latest armable.isLatest, fun snap mem => ?_⟩
    -- The first label of the cohort comes right behind its cutoff.
    have first : nthLabel (cohortCutoff snaps) fp 0 ∈ evidence (cohortCutoff snaps) n fp :=
      List.mem_map_of_mem (List.mem_range.mpr reaches.some)
    rw [← cohortOf_evidence] at first
    exact Nat.le_of_lt_succ (unseen _ first snap mem)
  · intro anchored rows _ eligible
    obtain ⟨latest, armable⟩ := armable_of_eligible eligible
    obtain ⟨suppresses, bounded⟩ := anchored latest armable
    constructor
    · intro other isLatest
      obtain rfl := Option.some.inj (armable.isLatest.symm.trans isLatest)
      exact suppresses
    · intro label mem snap inside
      exact Nat.lt_of_le_of_lt (bounded snap inside) (cohortOf_later mem)

end Soundness

-- A leak

/-- Rates in parts of ten thousand at `z = 1.96`, right where no trial or every trial succeeds. -/
def sampleNumerics : Numerics Nat where
  ratio k n := k * 10000 / n
  interval k n _ :=
    ( if k = n then n * 100000000 / (n * 10000 + 38416) else 0,
      if k = 0 then 384160000 / (n * 10000 + 38416) else 10000 )
  shown rate := toString rate

/-- A policy of low bars, and how many labels it asks for. -/
def samplePolicy (minN : Nat) : ShadowParams Nat where
  floor := 9000
  ceiling := 9500
  minN := minN
  minRefs := 1
  minPlays := 1
  minFp := 1
  recencyN := 30
  z := 19600
  stableSnaps := 1
  evalMinN := 1
  evalAgree := 2000

def sampleDismissal (seq : Nat) : DialLabel :=
  ⟨"resource-leak", .kilabz, .dismissedFalsePositive, .humanDismiss, seq, some "main", some "p"⟩

/-- A snapshot that is taken of these labels. -/
def sampleSnapshot (capturedAt : Time) (cutoff minN : Nat) (labels : List DialLabel)
    : Snapshot Nat :=
  {
    cellOf sampleNumerics (samplePolicy minN) labels ("resource-leak", .kilabz) with
    capturedAt := capturedAt
    dataCutoffSeq := cutoff
    policy := samplePolicy minN
  }

/-- Two labels and a snapshot, a third one, and a snapshot that asks for more of them. -/
def sampleSnaps : List (Snapshot Nat) :=
  [ sampleSnapshot 0 20 2 ([11, 12].map sampleDismissal),
    sampleSnapshot 604800000000 40 50 ([11, 12, 30].map sampleDismissal) ]

theorem includedOf_sample {seqs : List Nat} (ascending : seqs.Pairwise (· ≤ ·))
    : includedOf ((seqs.map sampleDismissal).filter
          (fun label => label.cellKey = ("resource-leak", .kilabz)))
        = seqs.map sampleDismissal := by
  have own
      : (seqs.map sampleDismissal).filter
            (fun label => label.cellKey = ("resource-leak", .kilabz))
          = seqs.map sampleDismissal :=
    List.filter_eq_self.mpr fun label mem => by
      obtain ⟨seq, -, rfl⟩ := List.mem_map.mp mem
      rfl
  have included
      : (seqs.map sampleDismissal).filter DialLabel.isIncluded = seqs.map sampleDismissal :=
    List.filter_eq_self.mpr fun label mem => by
      obtain ⟨seq, -, rfl⟩ := List.mem_map.mp mem
      rfl
  rw [own, includedOf, included]
  refine List.mergeSort_of_pairwise (List.pairwise_map.mpr (ascending.imp fun below => ?_))
  exact decide_eq_true below

theorem byCapture_sample : byCapture sampleSnaps = sampleSnaps :=
  List.mergeSort_of_pairwise (by decide)

/-- The cell is eligible after a snapshot that says nothing of it, by a label that the snapshot has
seen.
-/
theorem evalArming_leaks
    : (evalArming sampleNumerics sampleSnaps ([11, 12, 30].map sampleDismissal)).eligible = true
      ∧ (latestOf sampleSnaps).map (fun latest => latest.wouldSay) = some .insufficient
      ∧ cohortOf sampleSnaps ([11, 12, 30].map sampleDismissal) = [sampleDismissal 30]
      ∧ sampleSnaps.map Snapshot.dataCutoffSeq = [20, 40]
      ∧ ¬Sound sampleNumerics sampleSnaps ([11, 12, 30].map sampleDismissal) := by
  have two := @includedOf_sample [11, 12] (by decide)
  have three := @includedOf_sample [11, 12, 30] (by decide)
  have eligible
      : (evalArming sampleNumerics sampleSnaps ([11, 12, 30].map sampleDismissal)).eligible
        = true := by
    unfold evalArming latestOf stableOver cohortOf cohortCutoff wsSnaps
    rw [byCapture_sample]
    unfold sampleSnaps sampleSnapshot cellOf measure
    rw [two, three]
    decide +kernel
  have latest
      : (latestOf sampleSnaps).map (fun latest => latest.wouldSay) = some .insufficient := by
    rw [latestOf, byCapture_sample]
    unfold sampleSnaps sampleSnapshot cellOf measure
    rw [two, three]
    decide +kernel
  have cohort
      : cohortOf sampleSnaps ([11, 12, 30].map sampleDismissal) = [sampleDismissal 30] := by
    unfold cohortOf cohortCutoff wsSnaps
    rw [byCapture_sample]
    unfold sampleSnaps sampleSnapshot cellOf measure
    rw [two, three]
    decide +kernel
  refine ⟨eligible, latest, cohort, rfl, fun sound => ?_⟩
  obtain ⟨snap, isLatest, thin⟩ := Option.map_eq_some_iff.mp latest
  have suppresses := (sound eligible).1 snap isLatest
  rw [thin] at suppresses
  cases suppresses

end Outcomes
