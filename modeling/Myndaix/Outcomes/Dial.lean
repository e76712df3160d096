import Mathlib.Data.List.Dedup
import Mathlib.Data.List.Perm.Basic
import Mathlib.Data.List.Sort
import Mathlib.Data.String.Basic
import Mathlib.Order.Defs.LinearOrder
import Myndaix.Outcomes.Events

/-! The shadow dial: how precise each family is on each tag, told from the labels that people gave.
-/

namespace Outcomes

/-- What the dial takes from floating-point arithmetic: quotients, Wilson's interval of some trials,
and the two decimals that a rate is shown with.
-/
structure Numerics (Rate : Type) where
  ratio : Nat → Nat → Rate
  interval : Nat → Nat → Rate → Rate × Rate
  shown : Rate → String

structure ShadowParams (Rate : Type) where
  floor : Rate
  ceiling : Rate
  minN : Nat
  minRefs : Nat
  minPlays : Nat
  minFp : Nat
  recencyN : Nat
  z : Rate
  stableSnaps : Nat
  evalMinN : Nat
  evalAgree : Rate
deriving DecidableEq, Repr

/-- A row of `dial_shadow_labels`: the current label of a finding, and the review that raised it. -/
structure DialLabel where
  ruleTag : String
  family : Family
  outcome : Outcome
  source : Source
  seq : Nat
  ref : Option String
  play : Option String
deriving DecidableEq, Repr

-- Pairs

inductive PairClass : Type where
  | real
  | fp
  | excluded
  | invalid
deriving DecidableEq, Repr

def classifyPair : Source → Outcome → PairClass
  | .humanConfirm, .confirmedReal => .real
  | .humanDismiss, .dismissedFalsePositive => .fp
  | .humanDismiss, .dismissedWontfix => .excluded
  | _, _ => .invalid

namespace DialLabel

variable (label : DialLabel)

def pairClass : PairClass :=
  classifyPair label.source label.outcome

/-- The label tells of precision. -/
def isIncluded : Bool :=
  label.pairClass = .real || label.pairClass = .fp

/-- The cell that the label belongs to. -/
def cellKey : String × Family :=
  (label.ruleTag, label.family)

end DialLabel

-- Cells

inductive WouldSay : Type where
  | insufficient
  | wouldSuppress
  | wouldTrust
  | hold
deriving DecidableEq, Repr

/-- What is counted of the labels of a cell. -/
structure Measured (Rate : Type) where
  ruleTag : String
  family : Family
  confirmedReal : Nat
  dismissedFp : Nat
  n : Nat
  precision : Option Rate
  wilsonLo : Option Rate
  wilsonHi : Option Rate
  nRecent : Nat
  precisionRecent : Option Rate
  wilsonRecentLo : Option Rate
  wilsonRecentHi : Option Rate
  distinctRefs : Nat
  distinctPlays : Nat
  invalid : Nat
deriving DecidableEq, Repr

structure Cell (Rate : Type) extends Measured Rate where
  wouldSay : WouldSay
  reason : String
  suppressible : Bool
deriving DecidableEq, Repr

def Measured.cellKey {Rate : Type} (cell : Measured Rate) : String × Family :=
  (cell.ruleTag, cell.family)

/-- `SUPPRESSIBLE`: the tags whose findings may be suppressed. -/
def SUPPRESSIBLE : List String := []

section Aggregation

variable {Rate : Type} [LinearOrder Rate] (numerics : Numerics Rate) (params : ShadowParams Rate)

/-- `wilson`; no caller has more successes than trials, which would raise. -/
def wilson (k n : Nat) (z : Rate) : Option (Rate × Rate) :=
  if n = 0 then none else some (numerics.interval k n z)

def precisionOf (k n : Nat) : Option Rate :=
  if n = 0 then none else some (numerics.ratio k n)

/-- `included[-n:]`, which is the whole list for zero. -/
def lastOf {Item : Type} (n : Nat) (items : List Item) : List Item :=
  if n = 0 then items else items.drop (items.length - n)

def countReal (labels : List DialLabel) : Nat :=
  labels.countP (fun label => label.pairClass = .real)

/-- How many different texts there are, but for those that are missing or empty. -/
def distinctTexts (texts : List (Option String)) : Nat :=
  ((texts.filterMap id).filter (fun text => text ≠ "")).dedup.length

def bySeq (labels : List DialLabel) : List DialLabel :=
  labels.mergeSort (fun label later => label.seq ≤ later.seq)

/-- The precision labels of a cell, the oldest first. -/
def includedOf (items : List DialLabel) : List DialLabel :=
  bySeq (items.filter DialLabel.isIncluded)

def measure (key : String × Family) (items : List DialLabel) : Measured Rate :=
  let included := includedOf items
  let k := countReal included
  let n := included.length
  let recent := lastOf params.recencyN included
  let interval := wilson numerics k n params.z
  let recently := wilson numerics (countReal recent) recent.length params.z
  {
    ruleTag := key.1
    family := key.2
    confirmedReal := k
    dismissedFp := n - k
    n := n
    precision := precisionOf numerics k n
    wilsonLo := interval.map Prod.fst
    wilsonHi := interval.map Prod.snd
    nRecent := recent.length
    precisionRecent := precisionOf numerics (countReal recent) recent.length
    wilsonRecentLo := recently.map Prod.fst
    wilsonRecentHi := recently.map Prod.snd
    distinctRefs := distinctTexts (included.map DialLabel.ref)
    distinctPlays := distinctTexts (included.map DialLabel.play)
    invalid := items.countP (fun label => label.pairClass = .invalid)
  }

/-- What a cell is too thin in. -/
def thinness (cell : Measured Rate) : List String :=
  (if cell.n < params.minN then ["n<" ++ toString params.minN] else [])
  ++ (if cell.distinctRefs < params.minRefs then ["refs<" ++ toString params.minRefs] else [])
  ++ (if cell.distinctPlays < params.minPlays then ["plays<" ++ toString params.minPlays] else [])

/-- `_classify`: a thin cell says nothing; the bounds decide of the others. -/
def classify (cell : Measured Rate) : WouldSay × String :=
  if thinness params cell ≠ [] then (.insufficient, ",".intercalate (thinness params cell))
  else
    match cell.wilsonHi.filter (fun hi => hi < params.floor && params.minFp ≤ cell.dismissedFp) with
    | some hi =>
        (.wouldSuppress,
          "hi=" ++ numerics.shown hi ++ "<" ++ numerics.shown params.floor
            ++ ",fp=" ++ toString cell.dismissedFp)
    | none =>
        match cell.wilsonLo.filter (fun lo => params.ceiling ≤ lo) with
        | some lo =>
            (.wouldTrust, "lo=" ++ numerics.shown lo ++ ">=" ++ numerics.shown params.ceiling)
        | none => (.hold, "-")

def classified (cell : Measured Rate) : Cell Rate :=
  let verdict := classify numerics params cell
  {
    cell with
    wouldSay := verdict.1
    reason := verdict.2
    suppressible := verdict.1 = .wouldSuppress && SUPPRESSIBLE.contains cell.ruleTag
  }

/-- The order of the cells: by tag, then by family. -/
def keyLe (key other : String × Family) : Bool :=
  key.1 < other.1 || (key.1 = other.1 && (key.2 = .kilabz || other.2 = .oracle))

def cellKeys (labels : List DialLabel) : List (String × Family) :=
  (labels.map DialLabel.cellKey).dedup.mergeSort keyLe

def cellOf (labels : List DialLabel) (key : String × Family) : Cell Rate :=
  classified numerics params
    (measure numerics params key (labels.filter (fun label => label.cellKey = key)))

def aggregateCells (labels : List DialLabel) : List (Cell Rate) :=
  (cellKeys labels).map (cellOf numerics params labels)

end Aggregation

-- The cell of a key

section Laws

variable {Rate : Type} [LinearOrder Rate] {numerics : Numerics Rate} {params : ShadowParams Rate}
variable {labels other before after : List DialLabel} {label : DialLabel} {key : String × Family}

/-- The cell of a tag and a family, where a snapshot has one. -/
def cellAt (numerics : Numerics Rate) (params : ShadowParams Rate) (labels : List DialLabel)
    (key : String × Family) : Option (Cell Rate) :=
  (aggregateCells numerics params labels).find? (fun cell => cell.cellKey = key)

theorem mem_cellKeys : key ∈ cellKeys labels ↔ ∃ label ∈ labels, label.cellKey = key := by
  rw [cellKeys, List.mem_mergeSort, List.mem_dedup, List.mem_map]

/-- Only the labels of its key make a cell. -/
theorem cellAt_eq
    : cellAt numerics params labels key
      = if ∃ label ∈ labels, label.cellKey = key then some (cellOf numerics params labels key)
        else none := by
  have keyed : (fun cell : Cell Rate => decide (cell.cellKey = key)) ∘ cellOf numerics params labels
      = fun other => decide (other = key) := rfl
  rw [cellAt, aggregateCells, List.find?_map, keyed]
  split
  · rename_i present
    have mem := mem_cellKeys.mpr present
    cases found : (cellKeys labels).find? (fun other => other = key) with
    | none =>
        have apart := List.find?_eq_none.mp found key mem
        simp at apart
    | some other =>
        obtain rfl : other = key := by simpa using List.find?_some found
        rfl
  · rename_i absent
    have none : (cellKeys labels).find? (fun other => other = key) = none := by
      refine List.find?_eq_none.mpr fun other mem same => absent ?_
      rw [← of_decide_eq_true same]
      exact mem_cellKeys.mp mem
    rw [none]
    rfl

-- One label more

theorem exists_insert
    : (∃ other ∈ before ++ label :: after, other.cellKey = key)
      ↔ label.cellKey = key ∨ ∃ other ∈ before ++ after, other.cellKey = key := by
  constructor
  · rintro ⟨other, mem, same⟩
    rw [List.mem_append, List.mem_cons] at mem
    rcases mem with inside | rfl | inside
    · exact .inr ⟨other, List.mem_append_left _ inside, same⟩
    · exact .inl same
    · exact .inr ⟨other, List.mem_append_right _ inside, same⟩
  · rintro (same | ⟨other, mem, same⟩)
    · exact ⟨label, by simp, same⟩
    · refine ⟨other, ?_, same⟩
      rcases List.mem_append.mp mem with inside | inside
      · exact List.mem_append_left _ inside
      · exact List.mem_append_right _ (List.mem_cons_of_mem _ inside)

/-- A label of another cell changes nothing. -/
theorem cellAt_elsewhere (elsewhere : label.cellKey ≠ key)
    : cellAt numerics params (before ++ label :: after) key
      = cellAt numerics params (before ++ after) key := by
  have items
      : (before ++ label :: after).filter (fun label => label.cellKey = key)
        = (before ++ after).filter (fun label => label.cellKey = key) := by
    rw [List.filter_append, List.filter_append, List.filter_cons_of_neg (by simpa using elsewhere)]
  have same
      : cellOf numerics params (before ++ label :: after) key
        = cellOf numerics params (before ++ after) key := by
    rw [cellOf, cellOf, items]
  rw [cellAt_eq, cellAt_eq, same]
  exact if_congr (exists_insert.trans (or_iff_right elsewhere)) rfl rfl

/-- A label that tells nothing of precision leaves the precision labels as they are. -/
theorem includedOf_insert (silent : label.isIncluded = false)
    : includedOf (before ++ label :: after) = includedOf (before ++ after) := by
  rw [includedOf, includedOf, List.filter_append, List.filter_append,
    List.filter_cons_of_neg (by simp [silent])]

omit [LinearOrder Rate] in
/-- It moves the count of invalid labels, if any. -/
theorem measure_insert (silent : label.isIncluded = false)
    : measure numerics params key (before ++ label :: after)
      = {
          measure numerics params key (before ++ after) with
          invalid :=
            (measure numerics params key (before ++ after)).invalid
              + if label.pairClass = .invalid then 1 else 0
        } := by
  simp only [measure, includedOf_insert silent, List.countP_append, List.countP_cons,
    decide_eq_true_eq, Nat.add_comm, Nat.add_left_comm]

theorem cellOf_insert (silent : label.isIncluded = false) (here : label.cellKey = key)
    : cellOf numerics params (before ++ label :: after) key
      = {
          cellOf numerics params (before ++ after) key with
          invalid :=
            (cellOf numerics params (before ++ after) key).invalid
              + if label.pairClass = .invalid then 1 else 0
        } := by
  rw [cellOf, cellOf, List.filter_append, List.filter_append,
    List.filter_cons_of_pos (by simpa using here), measure_insert silent]
  rfl

/-- The cell that has no labels. -/
def emptyCell (numerics : Numerics Rate) (params : ShadowParams Rate) (key : String × Family)
    : Cell Rate :=
  cellOf numerics params [] key

theorem cellAt_insert (silent : label.isIncluded = false) (here : label.cellKey = key)
    : cellAt numerics params (before ++ label :: after) key
      = some
          {
            (cellAt numerics params (before ++ after) key).getD (emptyCell numerics params key) with
            invalid :=
              ((cellAt numerics params (before ++ after) key).getD
                  (emptyCell numerics params key)).invalid
                + if label.pairClass = .invalid then 1 else 0
          } := by
  have earlier
      : (cellAt numerics params (before ++ after) key).getD (emptyCell numerics params key)
        = cellOf numerics params (before ++ after) key := by
    rw [cellAt_eq]
    split
    · rfl
    · rename_i absent
      have none : (before ++ after).filter (fun label => label.cellKey = key) = [] :=
        List.filter_eq_nil_iff.mpr fun other mem same =>
          absent ⟨other, mem, of_decide_eq_true same⟩
      rw [cellOf, none]
      rfl
  rw [earlier, cellAt_eq, if_pos (exists_insert.mpr (.inl here)), cellOf_insert silent here]

-- Another order

theorem keyLe_trans (first second third : String × Family) (before : keyLe first second)
    (behind : keyLe second third)
    : keyLe first third := by
  obtain ⟨tag, family⟩ := first
  obtain ⟨tag', family'⟩ := second
  obtain ⟨tag'', family''⟩ := third
  simp only [keyLe, Bool.or_eq_true, Bool.and_eq_true, decide_eq_true_eq] at before behind ⊢
  rcases before with below | ⟨rfl, low⟩
  · rcases behind with below' | ⟨rfl, -⟩
    · exact .inl (lt_trans below below')
    · exact .inl below
  · rcases behind with below' | ⟨rfl, high⟩
    · exact .inl below'
    · refine .inr ⟨rfl, ?_⟩
      cases family <;> cases family' <;> simp_all

theorem keyLe_total (first second : String × Family)
    : keyLe first second || keyLe second first := by
  obtain ⟨tag, family⟩ := first
  obtain ⟨tag', family'⟩ := second
  simp only [keyLe, Bool.or_eq_true, Bool.and_eq_true, decide_eq_true_eq]
  rcases lt_trichotomy tag tag' with below | rfl | above
  · exact .inl (.inl below)
  · cases family <;> cases family' <;> simp
  · exact .inr (.inl above)

theorem keyLe_antisymm (first second : String × Family) (before : keyLe first second)
    (behind : keyLe second first)
    : first = second := by
  obtain ⟨tag, family⟩ := first
  obtain ⟨tag', family'⟩ := second
  simp only [keyLe, Bool.or_eq_true, Bool.and_eq_true, decide_eq_true_eq] at before behind
  rcases before with below | ⟨rfl, low⟩
  · rcases behind with below' | ⟨rfl, -⟩
    · exact absurd below' (lt_asymm below)
    · exact absurd below (lt_irrefl _)
  · have high := behind.resolve_left (lt_irrefl _)
    cases family <;> cases family' <;> simp_all

/-- Labels with numbers of their own are put in one order, however they stood. -/
theorem includedOf_perm (distinct : (labels.map DialLabel.seq).Nodup) (perm : labels.Perm other)
    : includedOf labels = includedOf other := by
  refine Relational.mergeSort_of_perm ?_ ?_ ?_ (perm.filter _)
  · intro first second third before behind
    have below := of_decide_eq_true before
    exact decide_eq_true (below.trans (of_decide_eq_true behind))
  · intro first second
    simpa using Nat.le_total first.seq second.seq
  · intro first mem second member' before behind
    have same := Nat.le_antisymm (of_decide_eq_true before) (of_decide_eq_true behind)
    exact List.inj_on_of_nodup_map distinct (List.mem_filter.mp mem).1
      (List.mem_filter.mp member').1 same

theorem cellOf_perm (distinct : (labels.map DialLabel.seq).Nodup) (perm : labels.Perm other)
    (key : String × Family)
    : cellOf numerics params labels key = cellOf numerics params other key := by
  have items := perm.filter (fun label => label.cellKey = key)
  have distinct' := distinct.sublist
    ((List.filter_sublist (p := fun label => label.cellKey = key) (l := labels)).map DialLabel.seq)
  rw [cellOf, cellOf, measure, measure, includedOf_perm distinct' items, items.countP_eq]

theorem aggregateCells_perm (distinct : (labels.map DialLabel.seq).Nodup)
    (perm : labels.Perm other)
    : aggregateCells numerics params labels = aggregateCells numerics params other := by
  have keys : cellKeys labels = cellKeys other :=
    Relational.mergeSort_of_perm keyLe_trans keyLe_total
      (fun first _ second _ => keyLe_antisymm first second) (perm.map _).dedup
  rw [aggregateCells, aggregateCells, keys]
  exact List.map_congr_left fun key _ => cellOf_perm distinct perm key

-- The laws

/-- The order of the labels does not matter; an excluded label changes no cell, an invalid one only
the count of invalid labels of its own, and no label another cell than its own.
-/
theorem aggregateCells_laws (numerics : Numerics Rate) (params : ShadowParams Rate)
    : (∀ labels other : List DialLabel,
          (labels.map DialLabel.seq).Nodup
          → labels.Perm other
          → aggregateCells numerics params labels = aggregateCells numerics params other)
      ∧ (∀ before label after,
          label.pairClass = .excluded
          → cellAt numerics params (before ++ label :: after) label.cellKey
            = some
                ((cellAt numerics params (before ++ after) label.cellKey).getD
                  (emptyCell numerics params label.cellKey)))
      ∧ (∀ before label after,
          label.pairClass = .invalid
          → cellAt numerics params (before ++ label :: after) label.cellKey
            = some
                {
                  (cellAt numerics params (before ++ after) label.cellKey).getD
                    (emptyCell numerics params label.cellKey) with
                  invalid :=
                    ((cellAt numerics params (before ++ after) label.cellKey).getD
                      (emptyCell numerics params label.cellKey)).invalid + 1
                })
      ∧ ∀ before label after key,
          label.cellKey ≠ key
          → cellAt numerics params (before ++ label :: after) key
            = cellAt numerics params (before ++ after) key := by
  refine ⟨fun labels other => aggregateCells_perm, ?_, ?_, ?_⟩
  · intro before label after excluded
    have silent : label.isIncluded = false := by rw [DialLabel.isIncluded, excluded]; rfl
    rw [cellAt_insert silent rfl, excluded]
    rfl
  · intro before label after invalid
    have silent : label.isIncluded = false := by rw [DialLabel.isIncluded, invalid]; rfl
    rw [cellAt_insert silent rfl, if_pos invalid]
  · intro before label after key elsewhere
    exact cellAt_elsewhere elsewhere

end Laws

end Outcomes
