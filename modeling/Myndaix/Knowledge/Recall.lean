import Myndaix.Curate.Changes
import Myndaix.Patterns.Like

/-! The last rung of recall: a query looked for literally in titles and bodies. -/

namespace Knowledge

open Curate (Str)
open Patterns (Wildcards like_within)

def QUERY_CAP_CHARS : Nat := 512

/-- `text.replace(old, new)` for one character. -/
def replaceChar (old : Char) (new text : Str) : Str :=
  text.flatMap fun char => if char = old then new else [char]

/-- `ilike_pattern`: `%`, `_` and the backslash in the query stand for themselves. -/
def ilikePattern (query : Str) : Str :=
  let q := query.take QUERY_CAP_CHARS
  let q := replaceChar '\\' ['\\', '\\'] q
  let q := replaceChar '%' ['\\', '%'] q
  let q := replaceChar '_' ['\\', '_'] q
  ['%'] ++ q ++ ['%']

/-- `LIKE … ESCAPE '\'`, whose case folding is left out. -/
def sqlLike : Wildcards Char :=
  ⟨'\\', '_', '%', by decide⟩

/-- The condition on a document's texts in `knowledge_recall_ilike`. -/
def recalls (pattern title body : Str) : Bool :=
  sqlLike.like title pattern = some true || sqlLike.like body pattern = some true

/-- Three replacements, one after the other, quote each special character once: what the first one
puts in has no character of the others.
-/
theorem replaceChar_quote (text : Str)
    : replaceChar '_' ['\\', '_'] (replaceChar '%' ['\\', '%'] (replaceChar '\\' ['\\', '\\'] text))
      = sqlLike.quote text := by
  unfold replaceChar Wildcards.quote
  rw [List.flatMap_assoc, List.flatMap_assoc]
  congr 1
  funext char
  by_cases backslash : char = '\\'
  · subst backslash
    decide
  · by_cases percent : char = '%'
    · subst percent
      decide
    · by_cases underscore : char = '_'
      · subst underscore
        decide
      · simp [backslash, percent, underscore, sqlLike]

theorem ilikePattern_eq (query : Str)
    : ilikePattern query
      = [sqlLike.run] ++ sqlLike.quote (query.take QUERY_CAP_CHARS) ++ [sqlLike.run] := by
  have quoted := replaceChar_quote (query.take QUERY_CAP_CHARS)
  exact congrArg (['%'] ++ · ++ ['%']) quoted

/-- The pattern is never an error, and finds the capped query wherever it stands. -/
theorem like_ilikePattern (text query : Str)
    : (sqlLike.like text (ilikePattern query)).isSome
      ∧ (sqlLike.like text (ilikePattern query) = some true
        ↔ query.take QUERY_CAP_CHARS <:+: text) := by
  rw [ilikePattern_eq, like_within]
  exact ⟨rfl, by rw [Option.some_inj, decide_eq_true_eq]⟩

/-- A document is recalled if its title or its body has the capped query in it. -/
theorem recalls_iff (query title body : Str)
    : recalls (ilikePattern query) title body = true
      ↔ query.take QUERY_CAP_CHARS <:+: title ∨ query.take QUERY_CAP_CHARS <:+: body := by
  unfold recalls
  rw [ilikePattern_eq, like_within, like_within]
  simp only [Option.some_inj, decide_eq_true_eq, Bool.or_eq_true]

/-- A wildcard or an escape in a query is a character like any other. -/
example : recalls (ilikePattern ['5', '%', '\\']) ['5', '0', '\\'] ['a', '5', '%', '\\'] = true
    ∧ recalls (ilikePattern ['5', '%', '\\']) ['5', '0', '\\'] ['5', '_', '\\'] = false := by
  decide

end Knowledge
