import Myndaix.Ledger.Policy
import Myndaix.Text.Unicode

/-! Binding a Python text to a parameter of a statement. A text that the database cannot hold is
an error of the whole statement, before any row is touched.
-/

namespace Ledger

open Text (CodePoint Points isSurrogate replacement)

/-- What `_UNSTORABLE_RE` finds. -/
def unstorable (point : CodePoint) : Bool :=
  point = 0 || isSurrogate point

/-- `_utf8_safe`, on a text that may have surrogates. -/
def utf8SafePoints (text : Points) : Points :=
  text.map (fun point => if unstorable point then replacement else point)

/-- Bind a text to a `text` parameter: strict UTF-8 on the wire, and no U+0000. -/
def bindText (text : Points) : Option String :=
  if text.any unstorable then none
  else some (String.ofList (text.map (fun point => Char.ofNat point.val)))

def isHighSurrogate (point : CodePoint) : Bool :=
  0xD800 ≤ point.val && point.val ≤ 0xDBFF

def isLowSurrogate (point : CodePoint) : Bool :=
  0xDC00 ≤ point.val && point.val ≤ 0xDFFF

/-- Whether `jsonb` takes a string of a document. `json.dumps` writes it in ASCII escapes, so a
high surrogate that stands before a low one makes a character with it.
-/
def jsonbAccepts : Points → Bool
  | [] => true
  | [point] => !unstorable point
  | first :: second :: rest =>
      if isHighSurrogate first then isLowSurrogate second && jsonbAccepts rest
      else !unstorable first && jsonbAccepts (second :: rest)

/-- Every surrogate stands in a pair, the high one first. -/
def paired : Points → Bool
  | [] => true
  | [point] => !isSurrogate point
  | first :: second :: rest =>
      if isHighSurrogate first then isLowSurrogate second && paired rest
      else !isSurrogate first && paired (second :: rest)

/-- The string that `jsonb` keeps of a text it accepts. -/
def jsonbText : Points → List Char
  | [] => []
  | [point] => [Char.ofNat point.val]
  | first :: second :: rest =>
      if isHighSurrogate first then
        Char.ofNat (0x10000 + (first.val - 0xD800) * 0x400 + (second.val - 0xDC00))
          :: jsonbText rest
      else Char.ofNat first.val :: jsonbText (second :: rest)

/-- Bind a string of a `jsonb` parameter. -/
def bindJsonb (text : Points) : Option String :=
  if jsonbAccepts text then some (String.ofList (jsonbText text)) else none

/-- A text without U+0000 and surrogates, so one that every column takes. -/
def Storable (text : Points) : Prop :=
  ∀ point ∈ text, unstorable point = false

instance (text : Points) : Decidable (Storable text) :=
  decidable_of_iff (text.all (fun point => !unstorable point) = true) (by simp [Storable])

variable {point : CodePoint}

section Storable

variable {text : Points} {bound : String}

theorem isSurrogate_of_high (high : isHighSurrogate point = true)
    : isSurrogate point = true := by
  unfold isHighSurrogate at high
  unfold isSurrogate
  simp only [Bool.and_eq_true, decide_eq_true_eq] at high ⊢
  omega

theorem bindText_isSome : (bindText text).isSome = true ↔ Storable text := by
  unfold bindText
  by_cases bad : text.any unstorable = true
  · rw [if_pos bad]
    obtain ⟨point, mem, unstorable⟩ := List.any_eq_true.mp bad
    exact ⟨nofun, fun storable => absurd unstorable (by simp [storable point mem])⟩
  · rw [if_neg bad]
    refine ⟨fun _ point mem => ?_, fun _ => rfl⟩
    by_contra unstorable
    exact bad (List.any_eq_true.mpr ⟨point, mem, by simpa using unstorable⟩)

theorem bindText_of_storable (storable : Storable text)
    : bindText text = some (String.ofList (text.map (fun point => Char.ofNat point.val))) := by
  obtain ⟨bound, isBound⟩ := Option.isSome_iff_exists.mp (bindText_isSome.mpr storable)
  rw [isBound, ← isBound]
  unfold bindText at isBound ⊢
  split at isBound
  · cases isBound
  · rename_i fine
    rw [if_neg fine]

theorem Storable.of_cons (storable : Storable (point :: text))
    : unstorable point = false ∧ Storable text :=
  ⟨storable point List.mem_cons_self,
    fun other mem => storable other (List.mem_cons_of_mem _ mem)⟩

/-- What the text columns take, `jsonb` takes too; by induction along its pairs. -/
theorem Storable.jsonb (storable : Storable text) : jsonbAccepts text = true := by
  induction text using jsonbAccepts.induct with
  | case1 => rfl
  | case2 point => simp [jsonbAccepts, storable.of_cons.1]
  | case3 first second rest high =>
      have plain := storable.of_cons.1
      unfold unstorable at plain
      rw [isSurrogate_of_high high, Bool.or_true] at plain
      cases plain
  | case4 first second rest plain induction =>
      rw [jsonbAccepts, if_neg plain, storable.of_cons.1, induction storable.of_cons.2]
      rfl

theorem not_unstorable : (!unstorable point) = true ↔ 0 ≠ point ∧ (!isSurrogate point) = true := by
  unfold unstorable
  rw [Bool.not_or, Bool.and_eq_true, Bool.not_eq_true', decide_eq_false_iff_not, eq_comm]

theorem zero_ne_of_high (high : isHighSurrogate point = true) : 0 ≠ point := by
  rintro rfl
  cases high

theorem zero_ne_of_low (low : isLowSurrogate point = true) : 0 ≠ point := by
  rintro rfl
  cases low

/-- By induction along the pairs. -/
theorem jsonbAccepts_iff (text : Points)
    : jsonbAccepts text = true ↔ 0 ∉ text ∧ paired text = true := by
  induction text using jsonbAccepts.induct with
  | case1 => simp [jsonbAccepts, paired]
  | case2 point => rw [jsonbAccepts, paired, not_unstorable, List.mem_singleton]
  | case3 first second rest high induction =>
      rw [jsonbAccepts, paired, if_pos high, if_pos high, Bool.and_eq_true, Bool.and_eq_true,
        induction]
      constructor
      · intro accepted
        obtain ⟨low, absent, paired⟩ := accepted
        have absent : 0 ∉ first :: second :: rest :=
          List.not_mem_cons_of_ne_of_not_mem (zero_ne_of_high high)
            (List.not_mem_cons_of_ne_of_not_mem (zero_ne_of_low low) absent)
        exact ⟨absent, low, paired⟩
      · intro accepted
        obtain ⟨absent, low, paired⟩ := accepted
        exact ⟨low, fun mem => absent (.tail _ (.tail _ mem)), paired⟩
  | case4 first second rest plain induction =>
      rw [jsonbAccepts, paired, if_neg plain, if_neg plain, Bool.and_eq_true, Bool.and_eq_true,
        induction, not_unstorable, @List.mem_cons _ first (second :: rest) 0, not_or]
      constructor
      · intro accepted
        obtain ⟨⟨other, scalar⟩, absent, paired⟩ := accepted
        exact ⟨⟨other, absent⟩, scalar, paired⟩
      · intro accepted
        obtain ⟨⟨other, absent⟩, scalar, paired⟩ := accepted
        exact ⟨⟨other, scalar⟩, absent, paired⟩

theorem storable_iff
    : Storable text ↔ 0 ∉ text ∧ ∀ point ∈ text, isSurrogate point = false := by
  constructor
  · intro storable
    refine ⟨fun mem => ?_, fun point mem => ?_⟩
    · cases storable 0 mem
    · exact (Bool.or_eq_false_iff.mp (storable point mem)).2
  · intro both point mem
    rw [unstorable, both.2 point mem, Bool.or_false, decide_eq_false_iff_not]
    exact fun zero => both.1 (zero ▸ mem)

theorem bindJsonb_isSome : (bindJsonb text).isSome = true ↔ jsonbAccepts text = true := by
  unfold bindJsonb
  split <;> simp_all

theorem storable_utf8Safe (text : Points) : Storable (utf8SafePoints text) := by
  intro point mem
  obtain ⟨original, -, rfl⟩ := List.mem_map.mp mem
  by_cases bad : unstorable original = true
  · rw [if_pos bad]
    decide
  · rw [if_neg bad]
    exact Bool.eq_false_iff.mpr bad

/-- What binds is stored as it is, the sanitizer of the verbs included. -/
theorem utf8Safe_bound (isBound : bindText text = some bound) : utf8Safe bound = bound := by
  have storable : Storable text := bindText_isSome.mp (isBound ▸ rfl)
  rw [bindText_of_storable storable] at isBound
  cases isBound
  apply String.toList_inj.mp
  rw [utf8Safe, String.toList_map, String.toList_ofList, List.map_map]
  refine List.map_congr_left fun point mem => ?_
  have plain := storable point mem
  unfold unstorable at plain
  rw [Bool.or_eq_false_iff, decide_eq_false_iff_not] at plain
  have scalar := Text.isSurrogate_eq_false.mp plain.2
  have valid : Nat.isValidChar point.val := by
    have := point.isLt
    unfold Nat.isValidChar
    omega
  have other : Char.ofNat point.val ≠ Char.ofNat 0 := by
    intro same
    refine plain.1 (Fin.ext ?_)
    have vals := congrArg Char.toNat same
    rwa [Char.ofNat, dif_pos valid] at vals
  exact if_neg other

end Storable

end Ledger
