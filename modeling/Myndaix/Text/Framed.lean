import Myndaix.Text.Occurrences
import Myndaix.Text.Records

/-! Sets of texts kept as one text: every member between two separators, and the membership test a
search for the member with its separators.
-/

namespace Text

variable {Symbol : Type} [DecidableEq Symbol] {separator : Symbol} {key : List Symbol}
  {keys : List (List Symbol)}

/-- The members, framed by separators. -/
def framed (separator : Symbol) (keys : List (List Symbol)) : List Symbol :=
  separator :: terminated separator keys

/-- The member occurs between separators. -/
def framedIn (separator : Symbol) (key text : List Symbol) : Bool :=
  decide (separator :: (key ++ [separator]) <:+: text)

omit [DecidableEq Symbol] in
theorem framed_cons (separator : Symbol) (key : List Symbol) (keys : List (List Symbol))
    : framed separator (key :: keys) = separator :: (key ++ framed separator keys) := by
  simp [framed, terminated]

omit [DecidableEq Symbol] in
theorem framed_append (separator : Symbol) (keys : List (List Symbol)) (key : List Symbol)
    : framed separator keys ++ key ++ [separator] = framed separator (keys ++ [key]) := by
  simp [framed, terminated]

omit [DecidableEq Symbol] in
/-- What begins with a symbol that the front lacks begins behind the front. -/
theorem cons_infix_append {front tail sought : List Symbol} {symbol : Symbol}
    (absent : symbol ∉ front)
    : symbol :: sought <:+: front ++ tail ↔ symbol :: sought <:+: tail := by
  induction front with
  | nil => rfl
  | cons first front ih =>
      rw [List.mem_cons, not_or] at absent
      rw [List.cons_append, List.infix_cons_iff, ih absent.2, List.cons_prefix_cons]
      exact or_iff_right fun begins => absent.1 begins.1

/-- A text without separators is found between them exactly if it is a member, by induction on them.
-/
theorem framedIn_framed (clean : ∀ key ∈ keys, separator ∉ key) (absent : separator ∉ key)
    : framedIn separator key (framed separator keys) ↔ key ∈ keys := by
  rw [framedIn, decide_eq_true_iff]
  induction keys with
  | nil =>
      refine iff_of_false (fun occurs => ?_) List.not_mem_nil
      have short := occurs.length_le
      simp [framed, terminated] at short
  | cons first keys ih =>
      have firstClean := clean first List.mem_cons_self
      have rest := ih fun key mem => clean key (List.mem_cons_of_mem _ mem)
      rw [framed_cons, List.infix_cons_iff, cons_infix_append firstClean, rest, List.mem_cons,
        List.cons_prefix_cons, framed]
      refine or_congr_left ⟨fun occurs => ?_, fun same => ?_⟩
      · obtain ⟨_, behind, same⟩ := occurs
        rw [List.append_assoc, List.singleton_append] at same
        exact (first_inj absent firstClean same).1
      · subst same
        exact ⟨rfl, _, List.append_cons .. |>.symm⟩

/-- The lines of a framed text are its members, behind an empty one. -/
theorem records_framed (clean : ∀ key ∈ keys, separator ∉ key)
    : records separator (framed separator keys) = [] :: keys := by
  have shape : framed separator keys = terminated separator ([] :: keys) := by
    simp [framed, terminated]
  rw [records, shape, splitOn_terminated]
  · exact List.dropLast_concat
  · intro key mem
    rcases List.mem_cons.mp mem with rfl | mem
    · exact List.not_mem_nil
    · exact clean key mem

end Text
