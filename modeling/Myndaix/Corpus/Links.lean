import Mathlib.Data.List.TakeWhile
import Myndaix.Curate.Content

/-! How the links of a text are read: piece by piece, where every piece begins and ends outside of a
link.
-/

namespace Corpus

open Curate

variable {text front back rest target : Str} {char : Char} {fuel : Nat}

/-- The targets of the links of a text. -/
def targets (text : Str) : List Str :=
  linkTargets text.length text

/-- An optional part of a link leaves an end of the text. -/
theorem part_suffix (mark : Char) (inside : Char → Bool) (text : Str)
    : (if text.head? = some mark then text.tail.dropWhile inside else text) <:+ text := by
  split
  · exact (List.dropWhile_suffix _).trans (List.tail_suffix _)
  · exact List.suffix_rfl

/-- What is behind a link is shorter than what was behind its brackets. -/
theorem wikilink_shorter (found : wikilink rest = some (target, text))
    : text.length < rest.length := by
  unfold wikilink at found
  dsimp only at found
  split at found
  · rename_i closed
    cases found
    have suffix := closed ▸ ((part_suffix _ _ _).trans (part_suffix _ _ _)).trans
      (List.dropWhile_suffix _)
    have shorter := suffix.length_le
    rw [List.length_cons, List.length_cons] at shorter
    omega
  · cases found

theorem linkTargets_nil (fuel : Nat) : linkTargets fuel [] = [] := by
  cases fuel with
  | zero => rfl
  | succ fuel => rfl

theorem linkTargets_opens (fuel : Nat) (rest : Str)
    : linkTargets (fuel + 1) ('[' :: '[' :: rest)
      = match wikilink rest with
        | some (target, rest) => target :: linkTargets fuel rest
        | none => linkTargets fuel ('[' :: rest) :=
  rfl

/-- Elsewhere the reader goes on by one character. -/
theorem linkTargets_skips (other : ∀ behind, char :: rest ≠ '[' :: '[' :: behind) (fuel : Nat)
    : linkTargets (fuel + 1) (char :: rest) = linkTargets fuel rest := by
  refine linkTargets.eq_2 fuel char rest fun behind first second => other behind ?_
  rw [first, second]

/-- Fuel for the length of the text is enough, by induction on the fuel. -/
theorem linkTargets_succ (enough : text.length ≤ fuel)
    : linkTargets (fuel + 1) text = linkTargets fuel text := by
  induction fuel generalizing text with
  | zero =>
      obtain rfl := List.length_eq_zero_iff.mp (Nat.le_zero.mp enough)
      rfl
  | succ fuel ih =>
      cases text with
      | nil => rfl
      | cons char rest =>
          rw [List.length_cons, Nat.add_le_add_iff_right] at enough
          by_cases opens : ∃ behind, char :: rest = '[' :: '[' :: behind
          · obtain ⟨behind, same⟩ := opens
            cases same
            rw [linkTargets_opens, linkTargets_opens]
            rw [List.length_cons] at enough
            cases found : wikilink behind with
            | none => exact ih enough
            | some link =>
                have shorter := wikilink_shorter found
                exact congrArg (link.1 :: ·) (ih (by omega))
          · have other : ∀ behind, char :: rest ≠ '[' :: '[' :: behind := fun behind same =>
              opens ⟨behind, same⟩
            rw [linkTargets_skips other, linkTargets_skips other, ih enough]

/-- Fuel for each character is enough. -/
theorem linkTargets_enough (enough : text.length ≤ fuel)
    : linkTargets fuel text = targets text := by
  induction fuel, enough using Nat.le_induction with
  | base => rfl
  | succ fuel enough ih => rw [linkTargets_succ enough, ih]

theorem targets_skips (other : ∀ behind, char :: rest ≠ '[' :: '[' :: behind)
    : targets (char :: rest) = targets rest :=
  linkTargets_skips other rest.length

theorem targets_opens (rest : Str)
    : targets ('[' :: '[' :: rest)
      = match wikilink rest with
        | some (target, rest) => target :: targets rest
        | none => targets ('[' :: rest) := by
  rw [targets, List.length_cons, linkTargets_opens]
  cases found : wikilink rest with
  | none => rfl
  | some link =>
      have shorter := wikilink_shorter found
      exact congrArg (link.1 :: ·) (linkTargets_enough (by rw [List.length_cons]; omega))

-- Pieces

/-- Whatever stands behind it, this text has these targets. -/
def Scans (text : Str) (found : List Str) : Prop :=
  ∀ rest, targets (text ++ rest) = found ++ targets rest

/-- What a text scans to are its targets. -/
theorem Scans.targets {found : List Str} (scans : Scans text found) : targets text = found := by
  have whole := scans []
  have none_ : Corpus.targets [] = [] := rfl
  rwa [List.append_nil, none_, List.append_nil] at whole

/-- Texts scan one after the other. -/
theorem Scans.append {found found' : List Str} (scans : Scans front found)
    (scans' : Scans back found')
    : Scans (front ++ back) (found ++ found') := by
  intro rest
  rw [List.append_assoc, scans, scans', List.append_assoc]

/-- A text without brackets has no links. -/
theorem Scans.plain (plain : '[' ∉ text) : Scans text [] := by
  induction text with
  | nil => exact fun _ => rfl
  | cons char text ih =>
      intro rest
      rw [List.mem_cons, not_or] at plain
      have other : ∀ behind, char :: (text ++ rest) ≠ '[' :: '[' :: behind := fun behind same =>
        plain.1 (List.cons.inj same).1.symm
      rw [List.cons_append, targets_skips other, ih plain.2]

/-- The text of a link: no brackets, bars or line feeds. -/
def LinkText (text : Str) : Prop :=
  ∀ char ∈ text, ['[', ']', '\n', '|'].contains char = false

/-- The target of a link with this text, if it has one. -/
def linkTarget (text : Str) : List Str :=
  let target := text.takeWhile (fun char => char ≠ '#')
  if target = [] then [] else [target]

theorem takeWhile_stop {Symbol : Type} {inside : Symbol → Bool} {front back : List Symbol}
    {stop : Symbol} (all : ∀ symbol ∈ front, inside symbol = true) (stops : inside stop = false)
    : (front ++ stop :: back).takeWhile inside = front := by
  rw [List.takeWhile_append_of_pos all, List.takeWhile_cons_of_neg (by simp [stops]),
    List.append_nil]

theorem dropWhile_stop {Symbol : Type} {inside : Symbol → Bool} {front back : List Symbol}
    {stop : Symbol} (all : ∀ symbol ∈ front, inside symbol = true) (stops : inside stop = false)
    : (front ++ stop :: back).dropWhile inside = stop :: back := by
  rw [List.dropWhile_append_of_pos all, List.dropWhile_cons_of_neg (by simp [stops])]

/-- Behind two brackets, the text of a link and two brackets are a link, if there is something
before the section.
-/
theorem wikilink_text (plain : LinkText text) (rest : Str)
    : wikilink (text ++ ']' :: ']' :: rest)
      = if text.takeWhile (fun char => char ≠ '#') = [] then none
        else some (text.takeWhile (fun char => char ≠ '#'), rest) := by
  obtain ⟨target, section_, same, clean, begins⟩
      : ∃ target section_,
          text = target ++ section_ ∧ (∀ char ∈ target, char ≠ '#')
          ∧ (section_ = [] ∨ ∃ behind, section_ = '#' :: behind) := by
    refine ⟨text.takeWhile (fun char => char ≠ '#'), text.dropWhile (fun char => char ≠ '#'),
      (List.takeWhile_append_dropWhile ..).symm, fun char mem => ?_, ?_⟩
    · simpa using List.mem_takeWhile_imp mem
    · cases behind : text.dropWhile (fun char => char ≠ '#') with
      | nil => exact .inl rfl
      | cons first rest =>
          have stopped := List.head?_dropWhile_not (fun char => decide (char ≠ '#')) text
          rw [behind, List.head?_cons] at stopped
          simp only [ne_eq, decide_not, Bool.not_eq_false', decide_eq_true_eq] at stopped
          exact .inr ⟨rest, by rw [stopped]⟩
  have inTarget : ∀ char ∈ target, (decide ¬['[', ']', '\n', '|', '#'].contains char) = true := by
    intro char mem
    have free := plain char (same ▸ List.mem_append_left _ mem)
    have other := clean char mem
    simp only [List.contains_cons, List.contains_nil, Bool.or_false, Bool.or_eq_false_iff,
      beq_eq_false_iff_ne] at free ⊢
    simp [free, other]
  unfold wikilink
  dsimp only
  rcases begins with rfl | ⟨behind, rfl⟩
  · rw [List.append_nil] at same
    subst same
    rw [takeWhile_stop inTarget (by decide), dropWhile_stop inTarget (by decide)]
    have whole : text.takeWhile (fun char => char ≠ '#') = text :=
      List.takeWhile_eq_self_iff.mpr fun char mem => by simpa using clean char mem
    rw [whole]
    cases text with
    | nil => rfl
    | cons first text => rfl
  · subst same
    have inSection : ∀ char ∈ behind, (decide ¬['[', ']', '\n', '|'].contains char) = true := by
      intro char mem
      have free := plain char (List.mem_append_right _ (List.mem_cons_of_mem _ mem))
      simp only [free, Bool.false_eq_true, not_false_eq_true, decide_true]
    rw [List.append_assoc, List.cons_append, takeWhile_stop inTarget (by decide),
      dropWhile_stop inTarget (by decide), List.head?_cons, if_pos rfl, List.tail_cons,
      dropWhile_stop inSection (by decide), takeWhile_stop (by simpa using clean) (by decide)]
    cases target with
    | nil => rfl
    | cons first target => rfl

/-- A link has the target that stands before its section. -/
theorem Scans.link (plain : LinkText text)
    : Scans ('[' :: '[' :: text ++ [']', ']']) (linkTarget text) := by
  intro rest
  have shape
      : '[' :: '[' :: text ++ [']', ']'] ++ rest
        = '[' :: '[' :: (text ++ ']' :: ']' :: rest) := by
    simp
  have bare : '[' ∉ text ++ [']', ']'] := by
    intro mem
    rcases List.mem_append.mp mem with inside | behind
    · exact absurd (plain _ inside) (by decide)
    · exact absurd behind (by decide)
  rw [shape, targets_opens, wikilink_text plain, linkTarget]
  by_cases none_ : text.takeWhile (fun char => char ≠ '#') = []
  · rw [if_pos none_, if_pos none_]
    have other : ∀ behind, '[' :: (text ++ ']' :: ']' :: rest) ≠ '[' :: '[' :: behind := by
      intro behind same
      have second := congrArg List.head? (List.cons.inj same).2
      cases text with
      | nil => cases second
      | cons first text => exact bare (List.mem_append_left _ (by simp_all))
    have scans := Scans.plain bare rest
    rw [List.append_assoc] at scans
    dsimp only
    rw [targets_skips other]
    exact scans
  · rw [if_neg none_, if_neg none_]
    rfl

end Corpus
