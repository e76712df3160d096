import Mathlib.Data.List.Basic

/-! Byte strings, the texts they encode, and cutting them at a separator. -/

namespace Text

abbrev Bytes :=
  List UInt8

/-- The bytes of an ASCII text. -/
def ascii (text : String) : Bytes :=
  text.toList.map (fun char => char.toNat.toUInt8)

/-- The UTF-8 bytes of a text. -/
def utf8 (text : List Char) : Bytes :=
  (String.ofList text).toByteArray.data.toList

/-- The text that the bytes encode in UTF-8, if they do. -/
def decodeUtf8 (bytes : Bytes) : Option (List Char) :=
  (String.fromUTF8? ⟨bytes.toArray⟩).map String.toList

theorem decodeUtf8_utf8 (text : List Char) : decodeUtf8 (utf8 text) = some text := by
  have valid := (String.ofList text).isValidUTF8
  unfold decodeUtf8 utf8 String.fromUTF8?
  rw [Array.toArray_toList, dif_pos valid, Option.map_some]
  exact congrArg some String.toList_ofList

theorem utf8_decodeUtf8 {bytes : Bytes} {text : List Char} (decoded : decodeUtf8 bytes = some text)
    : utf8 text = bytes := by
  unfold decodeUtf8 String.fromUTF8? at decoded
  split at decoded
  · rename_i valid
    cases decoded
    rw [utf8, String.ofList_toList]
    rfl
  · cases decoded

theorem utf8_injective {first second : List Char} (same : utf8 first = utf8 second)
    : first = second := by
  have decoded := decodeUtf8_utf8 first
  rw [same, decodeUtf8_utf8] at decoded
  cases decoded
  rfl

-- Separators

section Separators

variable {Symbol : Type} [DecidableEq Symbol] {separator : Symbol}

/-- Every part, each ended by the separator. -/
def terminated (separator : Symbol) (parts : List (List Symbol)) : List Symbol :=
  parts.flatMap (fun part => part ++ [separator])

/-- Ended parts are cut off one after the other, by induction on them. -/
theorem splitOn_terminated_append {parts : List (List Symbol)}
    (clean : ∀ part ∈ parts, separator ∉ part) (text : List Symbol)
    : (terminated separator parts ++ text).splitOn separator = parts ++ text.splitOn separator := by
  induction parts with
  | nil => rfl
  | cons part parts ih =>
      rw [terminated, List.flatMap_cons, List.append_assoc, List.append_assoc,
        List.singleton_append,
        List.splitOn_append_cons_self_of_not_mem (clean part List.mem_cons_self)]
      exact congrArg (part :: ·) (ih fun other mem => clean other (List.mem_cons_of_mem _ mem))

theorem splitOn_terminated {parts : List (List Symbol)} (clean : ∀ part ∈ parts, separator ∉ part)
    : (terminated separator parts).splitOn separator = parts ++ [[]] := by
  have split := splitOn_terminated_append clean []
  rwa [List.append_nil] at split

/-- A text has one part more than separators. -/
theorem length_splitOn (separator : Symbol) (text : List Symbol)
    : (text.splitOn separator).length = text.count separator + 1 := by
  induction text with
  | nil => rfl
  | cons symbol text ih =>
      rw [List.splitOn_cons_eq_if_modifyHead, List.count_cons]
      split
      · rw [List.length_cons, ih]
      · rw [List.length_modifyHead, ih]

omit [DecidableEq Symbol] in
/-- No part has what the text is cut at. -/
theorem splitOnP_clean {separates : Symbol → Bool} {text part : List Symbol}
    (mem : part ∈ text.splitOnP separates)
    : ∀ symbol ∈ part, separates symbol = false := by
  induction text generalizing part with
  | nil =>
      obtain rfl := List.mem_singleton.mp mem
      exact nofun
  | cons symbol text ih =>
      rw [List.splitOnP_cons_eq_if_modifyHead] at mem
      split at mem
      · rcases List.mem_cons.mp mem with rfl | mem
        · exact nofun
        · exact ih mem
      · rename_i other
        obtain ⟨first, parts, split⟩ :=
          List.exists_cons_of_ne_nil (List.splitOnP_ne_nil separates text)
        rw [split, List.modifyHead_cons] at mem
        rcases List.mem_cons.mp mem with rfl | mem
        · intro inner inside
          rcases List.mem_cons.mp inside with rfl | inside
          · exact Bool.eq_false_iff.mpr other
          · exact ih (split ▸ List.mem_cons_self) inner inside
        · exact ih (split ▸ List.mem_cons_of_mem _ mem)

theorem splitOn_clean {text part : List Symbol} (mem : part ∈ text.splitOn separator)
    : separator ∉ part := by
  rw [List.splitOn_eq_splitOnP] at mem
  intro inside
  have other := splitOnP_clean mem separator inside
  rw [beq_self_eq_true] at other
  cases other

omit [DecidableEq Symbol] in
/-- Joining the parts and an empty one ends every part, by induction on the parts. -/
theorem intercalate_terminated (parts : List (List Symbol))
    : [separator].intercalate (parts ++ [[]]) = terminated separator parts := by
  induction parts with
  | nil => rfl
  | cons part parts ih =>
      rw [List.cons_append, List.intercalate_cons_of_ne_nil (List.append_ne_nil_of_right_ne_nil _
        (List.cons_ne_nil _ _)), ih, terminated, terminated, List.flatMap_cons]

omit [DecidableEq Symbol] in
/-- The last separator is all that joining leaves out, by induction on the parts. -/
theorem intercalate_append {parts : List (List Symbol)} (nonempty : parts ≠ [])
    : [separator].intercalate parts ++ [separator] = terminated separator parts := by
  induction parts with
  | nil => exact absurd rfl nonempty
  | cons part parts ih =>
      cases parts with
      | nil => simp [terminated]
      | cons next parts =>
          rw [List.intercalate_cons_cons, List.append_assoc, ih (List.cons_ne_nil _ _), terminated,
            terminated, List.flatMap_cons]
          simp

/-- What is in a part is in the text. -/
theorem mem_of_part {text part : List Symbol} {symbol : Symbol}
    (isPart : part ∈ text.splitOn separator) (inside : symbol ∈ part)
    : symbol ∈ text := by
  have whole := @intercalate_append _ separator _ (List.splitOn_ne_nil separator text)
  rw [List.intercalate_splitOn] at whole
  have ended : symbol ∈ terminated separator (text.splitOn separator) :=
    List.mem_flatMap.mpr ⟨part, isPart, List.mem_append_left _ inside⟩
  rw [← whole] at ended
  refine (List.mem_append.mp ended).resolve_right fun last => splitOn_clean isPart ?_
  rwa [← List.mem_singleton.mp last]

/-- A text whose last part is empty is the other parts, each of them ended. -/
theorem terminated_dropLast {text : List Symbol}
    (ended : (text.splitOn separator).getLast? = some [])
    : terminated separator (text.splitOn separator).dropLast = text := by
  have whole := List.dropLast_append_getLast? [] ended
  rw [← intercalate_terminated, whole, List.intercalate_splitOn]

end Separators

end Text
