import Myndaix.Capture.Triggers
import Myndaix.Numbers.Greatest

/-! The rank of a skill among those chosen for the changed paths: the literal segments of the most
specific alternative of its trigger that matches one of them.
-/

namespace Capture

open Numbers (IsBest better isBest_empty)
open Outcomes (isSpace splitWords strip)
open Patterns (fnmatchcase)

/-- The segments of an alternative that have no wildcard. -/
def altSpecificity (alt : Str) : Nat :=
  (alt.splitOn '/').countP (fun seg => !seg.any (fun char => char ∈ ['*', '?', '[']))

/-- The loop over the paths of one alternative, which its first match ends. -/
def matchPaths (alt : Str) (best : Option Nat) : List (List Str) → Option Nat
  | [] => best
  | psegs :: psegsList =>
      if altMatches alt psegs then better best (altSpecificity alt)
      else matchPaths alt best psegsList

def matchSpecificity (trigger : Str) (paths : List Str) : Option Nat :=
  let psegsList := paths.map (fun path => (strip path).splitOn '/')
  (triggerAlternatives trigger).foldl (fun best alt => matchPaths alt best psegsList) none

/-- An alternative and a path of as many segments, where each pattern takes the name that stands
at its own position.
-/
structure SegmentMatch (alt path : Str) : Prop where
  depth : (alt.splitOn '/').length = ((strip path).splitOn '/').length
  names : ∀ (position : Nat) (pattern name : Str),
    (alt.splitOn '/')[position]? = some pattern
      → ((strip path).splitOn '/')[position]? = some name
      → fnmatchcase name pattern = true

-- One alternative

section Match

variable {alt path : Str}

/-- Two lists go together at every position, by induction on both. -/
theorem all_zip_iff {α β : Type} {goes : α × β → Bool} {firsts : List α} {seconds : List β}
    : (firsts.zip seconds).all goes = true
      ↔ ∀ (position : Nat) (first : α) (second : β),
          firsts[position]? = some first → seconds[position]? = some second
            → goes (first, second) = true := by
  rw [List.all_eq_true]
  constructor
  · intro all position first second atFirst atSecond
    have found : (firsts.zip seconds)[position]? = some (first, second) :=
      List.getElem?_zip_eq_some.mpr ⟨atFirst, atSecond⟩
    exact all (first, second) (List.mem_of_getElem? found)
  · intro all pair mem
    obtain ⟨position, found⟩ := List.getElem?_of_mem mem
    obtain ⟨atFirst, atSecond⟩ := List.getElem?_zip_eq_some.mp found
    exact all position pair.1 pair.2 atFirst atSecond

theorem altMatches_iff
    : altMatches alt ((strip path).splitOn '/') = true ↔ SegmentMatch alt path := by
  unfold altMatches
  rw [Bool.and_eq_true, decide_eq_true_eq, all_zip_iff]
  exact ⟨fun both => ⟨both.1, both.2⟩, fun both => ⟨both.depth, both.names⟩⟩

theorem segMatch_iff_segmentMatch {trigger : Str}
    : segMatch trigger path = true
      ↔ ∃ alt ∈ triggerAlternatives trigger, SegmentMatch alt path := by
  unfold segMatch
  simp only [List.any_eq_true, altMatches_iff]

theorem segMatch_alternative {trigger : Str} (mem : alt ∈ triggerAlternatives trigger)
    : segMatch alt path = altMatches alt ((strip path).splitOn '/') := by
  unfold segMatch
  rw [triggerAlternatives_alternative mem, List.any_cons, List.any_nil, Bool.or_false]

end Match

-- The most specific one that matches

/-- The first match of an alternative is the only one that counts, by induction on the paths. -/
theorem matchPaths_eq (alt : Str) (best : Option Nat) (psegsList : List (List Str))
    : matchPaths alt best psegsList
      = if psegsList.any (altMatches alt) then better best (altSpecificity alt) else best := by
  induction psegsList with
  | nil => rfl
  | cons psegs psegsList induction =>
      rw [matchPaths, induction, List.any_cons]
      by_cases matched : altMatches alt psegs = true
      · rw [matched, if_pos rfl, Bool.true_or, if_pos rfl]
      · rw [Bool.eq_false_of_not_eq_true matched, if_neg Bool.false_ne_true, Bool.false_or]

theorem any_paths_iff {trigger alt : Str} (mem : alt ∈ triggerAlternatives trigger)
    (paths : List Str)
    : ((paths.map (fun path => (strip path).splitOn '/')).any (altMatches alt) = true)
      ↔ ∃ path ∈ paths, segMatch alt path = true := by
  rw [List.any_map, List.any_eq_true]
  simp only [Function.comp_apply, segMatch_alternative mem]

/-- The rank kept by the loop, as that of a loop over the alternatives that match some path. -/
theorem matchSpecificity_isBest (trigger : Str) (paths : List Str)
    : IsBest
        {specific | ∃ alt ∈ triggerAlternatives trigger,
          (∃ path ∈ paths, segMatch alt path = true) ∧ altSpecificity alt = specific}
        (matchSpecificity trigger paths) := by
  have same
      : {specific | ∃ alt ∈ triggerAlternatives trigger,
          (∃ path ∈ paths, segMatch alt path = true) ∧ altSpecificity alt = specific}
        = ∅ ∪ {specific | ∃ alt ∈ triggerAlternatives trigger,
          (paths.map (fun path => (strip path).splitOn '/')).any (altMatches alt) = true
            ∧ altSpecificity alt = specific} := by
    ext specific
    rw [Set.empty_union]
    refine exists_congr fun alt => and_congr_right fun mem => ?_
    rw [any_paths_iff mem]
  rw [same]
  unfold matchSpecificity
  simp only [matchPaths_eq]
  exact isBest_empty.foldl (triggerAlternatives trigger)

/-- A trigger ranks as the most specific of its alternatives that match a path. -/
theorem matchSpecificity_greatest (trigger : Str) (paths : List Str)
    : (matchSpecificity trigger paths = none
        ↔ ∀ alt ∈ triggerAlternatives trigger, ∀ path ∈ paths, segMatch alt path = false)
      ∧ (∀ specific, matchSpecificity trigger paths = some specific
        ↔ IsGreatest
            {specific | ∃ alt ∈ triggerAlternatives trigger,
              (∃ path ∈ paths, segMatch alt path = true) ∧ altSpecificity alt = specific}
            specific)
      ∧ ∀ path, segMatch trigger path = true
        ↔ ∃ alt ∈ triggerAlternatives trigger, SegmentMatch alt path := by
  have kept := matchSpecificity_isBest trigger paths
  refine ⟨?_, fun specific => kept.some_iff, fun path => segMatch_iff_segmentMatch⟩
  rw [kept.none_iff, Set.eq_empty_iff_forall_notMem]
  constructor
  · intro none alt mem path among
    by_contra matched
    exact none (altSpecificity alt)
      ⟨alt, mem, ⟨path, among, Bool.eq_true_of_not_eq_false matched⟩, rfl⟩
  · intro none specific found
    obtain ⟨alt, mem, ⟨path, among, matched⟩, -⟩ := found
    exact Bool.false_ne_true ((none alt mem path among).symm.trans matched)

end Capture
