import Myndaix.Text.Bytes

/-! Records that a separator ends, read from a stream that comes in pieces: what is complete so far,
and the begin of a record that is not.
-/

namespace Text

variable {Symbol : Type} [DecidableEq Symbol] {separator : Symbol} {text front back : List Symbol}

/-- The texts before and behind the first separator. -/
def cut (separator : Symbol) : List Symbol → Option (List Symbol × List Symbol)
  | [] => none
  | symbol :: rest =>
      if symbol = separator then some ([], rest)
      else (cut separator rest).map (fun (before, after) => (symbol :: before, after))

/-- The records that are complete. -/
def records (separator : Symbol) (text : List Symbol) : List (List Symbol) :=
  (text.splitOn separator).dropLast

/-- What stands behind the last separator. -/
def pending (separator : Symbol) (text : List Symbol) : List Symbol :=
  (text.splitOn separator).getLast (List.splitOn_ne_nil separator text)

theorem records_pending (separator : Symbol) (text : List Symbol)
    : records separator text ++ [pending separator text] = text.splitOn separator :=
  List.dropLast_append_getLast _

theorem records_clean {record : List Symbol} (mem : record ∈ records separator text)
    : separator ∉ record :=
  splitOn_clean (List.dropLast_subset _ mem)

theorem pending_clean (separator : Symbol) (text : List Symbol)
    : separator ∉ pending separator text :=
  splitOn_clean (List.getLast_mem _)

omit [DecidableEq Symbol] in
theorem intercalate_terminated_append (parts : List (List Symbol)) (last : List Symbol)
    : [separator].intercalate (parts ++ [last]) = terminated separator parts ++ last := by
  induction parts with
  | nil => simp [terminated, List.intercalate_singleton]
  | cons part parts ih =>
      obtain ⟨next, rest, isNext⟩ := List.exists_cons_of_ne_nil
        (List.append_ne_nil_of_right_ne_nil parts (List.cons_ne_nil last []))
      rw [List.cons_append, isNext, List.intercalate_cons_cons, ← isNext, ih]
      simp [terminated]

theorem terminated_records (separator : Symbol) (text : List Symbol)
    : terminated separator (records separator text) ++ pending separator text = text := by
  rw [← intercalate_terminated_append, records_pending, List.intercalate_splitOn]

/-- More text goes on with the record that is pending. -/
theorem splitOn_append (separator : Symbol) (front back : List Symbol)
    : (front ++ back).splitOn separator
      = records separator front ++ (pending separator front ++ back).splitOn separator := by
  conv => lhs; rw [← terminated_records separator front]
  rw [List.append_assoc]
  exact splitOn_terminated_append (fun record mem => records_clean mem) _

theorem records_append (separator : Symbol) (front back : List Symbol)
    : records separator (front ++ back)
      = records separator front ++ records separator (pending separator front ++ back) := by
  unfold records
  rw [splitOn_append, List.dropLast_append_of_ne_nil (List.splitOn_ne_nil _ _)]
  rfl

theorem pending_append (separator : Symbol) (front back : List Symbol)
    : pending separator (front ++ back) = pending separator (pending separator front ++ back) := by
  have whole := splitOn_append separator front back
  rw [← records_pending separator (front ++ back),
    ← records_pending separator (pending separator front ++ back), ← List.append_assoc] at whole
  exact List.singleton_inj.mp (List.append_inj_right' whole rfl)

theorem records_of_not_mem (absent : separator ∉ text) : records separator text = [] := by
  rw [records, List.splitOn_eq_singleton absent]
  rfl

theorem pending_of_not_mem (absent : separator ∉ text) : pending separator text = text := by
  simp [pending, List.splitOn_eq_singleton absent]

theorem cut_none (absent : cut separator text = none) : separator ∉ text := by
  induction text with
  | nil => exact List.not_mem_nil
  | cons symbol rest ih =>
      rw [cut] at absent
      split at absent
      · cases absent
      · rename_i other
        rw [Option.map_eq_none_iff] at absent
        exact fun mem => (List.mem_cons.mp mem).elim (fun same => other same.symm) (ih absent)

theorem cut_some {before after : List Symbol} (found : cut separator text = some (before, after))
    : text = before ++ separator :: after ∧ separator ∉ before := by
  induction text generalizing before with
  | nil => cases found
  | cons symbol rest ih =>
      rw [cut] at found
      split at found
      · rename_i same
        cases found
        exact ⟨by rw [same]; rfl, List.not_mem_nil⟩
      · rename_i other
        obtain ⟨⟨inner, tail⟩, isInner, same⟩ := Option.map_eq_some_iff.mp found
        cases same
        obtain ⟨rfl, clean⟩ := ih isInner
        exact ⟨rfl, fun mem => (List.mem_cons.mp mem).elim (fun same => other same.symm) clean⟩

theorem cut_of_not_mem {before : List Symbol} (clean : separator ∉ before) (after : List Symbol)
    : cut separator (before ++ separator :: after) = some (before, after) := by
  induction before with
  | nil => exact if_pos rfl
  | cons symbol before ih =>
      rw [List.mem_cons, not_or] at clean
      rw [List.cons_append, cut, if_neg (Ne.symm clean.1), ih clean.2, Option.map_some]

/-- A record that is cut off comes first. -/
theorem records_cut {before after : List Symbol} (found : cut separator text = some (before, after))
    : records separator text = before :: records separator after
      ∧ pending separator text = pending separator after := by
  obtain ⟨rfl, clean⟩ := cut_some found
  have split := List.splitOn_append_cons_self_of_not_mem clean after
  have some_ := List.splitOn_ne_nil separator after
  exact ⟨by rw [records, split, List.dropLast_cons_of_ne_nil some_, records],
    by simp [pending, split, List.getLast_cons some_]⟩

/-- A text without separators goes before the first record. -/
theorem splitOn_append_clean (clean : separator ∉ front) (back : List Symbol)
    : (front ++ back).splitOn separator
      = (back.splitOn separator).modifyHead (fun record => front ++ record) := by
  induction front with
  | nil => exact (congrFun List.modifyHead_id _).symm
  | cons symbol front ih =>
      rw [List.mem_cons, not_or] at clean
      have other : (symbol == separator) = false := beq_eq_false_iff_ne.mpr (Ne.symm clean.1)
      rw [List.cons_append, List.splitOn_cons_eq_if_modifyHead, other, ih clean.2,
        List.modifyHead_modifyHead]
      rfl

/-- What is pending begins a record of the whole text. -/
theorem pending_begins (separator : Symbol) (front back : List Symbol)
    : ∃ record ∈ (front ++ back).splitOn separator, pending separator front <+: record := by
  obtain ⟨record, rest, split⟩ := List.exists_cons_of_ne_nil (List.splitOn_ne_nil separator back)
  refine ⟨pending separator front ++ record, ?_, List.prefix_append _ _⟩
  rw [splitOn_append, splitOn_append_clean (pending_clean separator front), split]
  exact List.mem_append_right _ List.mem_cons_self

/-- What treats the two sides of a separator on their own treats every record on its own. -/
theorem splitOn_mapped {treat : List Symbol → List Symbol}
    (across
      : ∀ front tail, treat (front ++ separator :: tail) = treat front ++ separator :: treat tail)
    (clean : ∀ record, separator ∉ record → separator ∉ treat record) (text : List Symbol)
    : (treat text).splitOn separator = (text.splitOn separator).map treat := by
  have onward (parts : List (List Symbol)) (last : List Symbol)
      : treat (terminated separator parts ++ last)
        = terminated separator (parts.map treat) ++ treat last := by
    induction parts with
    | nil => rfl
    | cons part parts ih =>
        have step := across part (terminated separator parts ++ last)
        rw [ih] at step
        simpa [terminated] using step
  have ends := clean _ (pending_clean separator text)
  have within : ∀ record ∈ (records separator text).map treat, separator ∉ record := by
    intro record mem
    obtain ⟨original, isRecord, rfl⟩ := List.mem_map.mp mem
    exact clean original (records_clean isRecord)
  conv => lhs; rw [← terminated_records separator text]
  rw [onward, splitOn_terminated_append within, List.splitOn_eq_singleton ends,
    ← records_pending separator text, List.map_append, List.map_singleton]

end Text
