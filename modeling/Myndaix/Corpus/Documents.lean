import Mathlib.Data.List.Infix
import Myndaix.Curate.Content
import Myndaix.Text.Decoding

/-! What the walk of a corpus makes of one Markdown file: the decoded body, cut where it is too
long, and the title, the tags and the date that the body or the name tells.
-/

namespace Corpus

open Curate (Str baseName)
open Outcomes (isSpace strip)
open Text

-- The fields of a document

/-- What a walk takes from outside: the decimal digits of Unicode and the hash of a file. -/
structure Tables where
  isDecimal : Char → Bool
  sha256 : Bytes → Str

structure DocRecord where
  path : Str
  title : Str
  tags : Str
  docDate : Option Str
  body : Str
  contentSha : Str
  lossy : Bool
deriving DecidableEq, Repr

def BODY_CAP_BYTES : Nat := 900000

def TRUNCATION_MARKER : Str :=
  "\n\n[truncated for index — full file on disk]\n".toList

/-- `Path(rel).stem`. -/
def pathStem (rel : Str) : Str :=
  let name := baseName rel
  let extension := (name.reverse.takeWhile (fun char => char ≠ '.')).length
  if 0 < extension ∧ extension + 1 < name.length then name.take (name.length - extension - 1)
  else name

/-- The text from every place where `^` matches. -/
def lineStarts : Str → List Str :=
  fun text => text :: (text.tails.filterMap fun rest =>
    if rest.head? = some '\n' then some rest.tail else none)

/-- What is left of a text that begins with a word. -/
def behind (word text : Str) : Option Str :=
  if word.isPrefixOf text then some (text.drop word.length) else none

/-- The group of `\s*(.+)$`, with so many blanks at least. Where there are blanks alone, the group
is the last of them that is no line feed.
-/
def spaced (least : Nat) (text : Str) : Option Str :=
  let blanks := text.takeWhile isSpace
  let text := text.dropWhile isSpace
  if text = [] then
    ((blanks.drop least).reverse.find? (fun char => char ≠ '\n')).map (fun char => [char])
  else if least ≤ blanks.length then some (text.takeWhile (fun char => char ≠ '\n'))
  else none

/-- The group of `_HEADING_RE.search(text)`. -/
def heading (text : Str) : Option Str :=
  (lineStarts text).findSome? (fun line => (behind "#".toList line).bind (spaced 1))

/-- The group of `_FM_TAGS_RE.search(text)`. -/
def frontmatterTags (text : Str) : Option Str :=
  (lineStarts text).findSome? (fun line => (behind "tags:".toList line).bind (spaced 0))

variable (tables : Tables)

/-- `\d{4}-\d{2}-\d{2}` at the begin of a text. -/
def isoDate (text : Str) : Option Str :=
  let date := text.take 10
  let shaped := (date.zip "0000-00-00".toList).all (fun (char, mask) =>
    if mask = '-' then char = '-' else tables.isDecimal char)
  if date.length = 10 ∧ shaped then some date else none

/-- The group of `_DATE_PREFIX_RE.match(name)`. -/
def nameDate (name : Str) : Option Str :=
  if name[10]? = some '-' then isoDate tables name else none

/-- The group of `_FM_DATE_RE.search(text)`. -/
def frontmatterDate (text : Str) : Option Str :=
  (lineStarts text).findSome? (fun line =>
    (behind "date:".toList line).bind (fun rest =>
      let rest := rest.dropWhile isSpace
      isoDate tables (if rest.head?.any ['\x27', '"'].contains then rest.tail else rest)))

-- The document

/-- `raw.decode("utf-8", errors="replace")`. -/
def decoded (raw : Bytes) : Str :=
  characters (decodeReplacing raw)

/-- The bytes of a replacement character. -/
def REPLACEMENT : Bytes :=
  [0xEF, 0xBF, 0xBD]

/-- `text.encode()[:room].decode(errors="ignore")`. -/
def fitting : Nat → Str → Str
  | _, [] => []
  | room, char :: text =>
      if (String.utf8EncodeChar char).length ≤ room then
        char :: fitting (room - (String.utf8EncodeChar char).length) text
      else []

def isTag (char : Char) : Bool :=
  ['[', ']', '\x27', '"', '#'].contains char

def parseDoc (relPath : Str) (raw : Bytes) : DocRecord :=
  let body := decoded raw
  let introduced := body.contains '\uFFFD' && !raw.tails.any REPLACEMENT.isPrefixOf
  let filled := body.contains '\x00'
  let body := if filled then body.filter (fun char => char ≠ '\x00') else body
  let long := BODY_CAP_BYTES < (utf8 body).length
  let body := if long then fitting BODY_CAP_BYTES body ++ TRUNCATION_MARKER else body
  {
    path := relPath,
    title := (((heading body).map strip).getD (pathStem relPath)).take 300,
    tags :=
      (((frontmatterTags (body.take 2000)).map fun tags =>
        strip (tags.map fun char => if isTag char then ' ' else char)).getD []).take 300,
    docDate :=
      (nameDate tables (baseName relPath)).or (frontmatterDate tables (body.take 2000)),
    body := body,
    contentSha := tables.sha256 raw,
    lossy := introduced || filled || long
  }

-- What is lost

variable {tables : Tables} {relPath text : Str} {raw : Bytes}

theorem replacementBytes_iff
    : raw.tails.any REPLACEMENT.isPrefixOf = true ↔ REPLACEMENT <:+: raw := by
  rw [List.any_eq_true, List.infix_iff_prefix_suffix]
  constructor
  · rintro ⟨rest, isTail, begins⟩
    exact ⟨rest, List.isPrefixOf_iff_prefix.mp begins, (List.mem_tails _ _).mp isTail⟩
  · rintro ⟨rest, begins, isTail⟩
    exact ⟨rest, (List.mem_tails _ _).mpr isTail, List.isPrefixOf_iff_prefix.mpr begins⟩

/-- A replacement character in a text is there in its bytes. -/
theorem replacement_infix (mem : '\uFFFD' ∈ text) : REPLACEMENT <:+: utf8 text := by
  obtain ⟨front, back, rfl⟩ := List.append_of_mem mem
  have bytes : String.utf8EncodeChar '\uFFFD' = REPLACEMENT := by decide
  rw [utf8_append, utf8_cons, bytes]
  exact ⟨utf8 front, utf8 back, List.append_assoc ..⟩

theorem nul_utf8 : (0 : UInt8) ∈ utf8 text ↔ '\x00' ∈ text := by
  rw [← nul_mem_decodeReplacing, characters_decodeReplacing]

theorem fitting_subset (room : Nat) (text : Str) : fitting room text ⊆ text := by
  induction text generalizing room with
  | nil => exact List.nil_subset _
  | cons char text ih =>
      rw [fitting]
      split
      · exact List.cons_subset_cons _ (ih _)
      · exact List.nil_subset _

/-- No body has a NUL. -/
theorem nul_not_mem_body : '\x00' ∉ (parseDoc tables relPath raw).body := by
  have clean : '\x00'
      ∉ if (decoded raw).contains '\x00' then (decoded raw).filter (fun char => char ≠ '\x00')
        else decoded raw := by
    split
    · simp
    · rename_i free
      simpa using free
  have marker : '\x00' ∉ TRUNCATION_MARKER := by decide
  simp only [parseDoc]
  generalize (if (decoded raw).contains '\x00' then (decoded raw).filter (fun char => char ≠ '\x00')
    else decoded raw) = body at clean ⊢
  split
  · rw [List.mem_append]
    exact not_or.mpr ⟨fun mem => clean (fitting_subset _ _ mem), marker⟩
  · exact clean

/-- The flag stays down where no replacement character and no NUL tells of a loss and nothing is
cut.
-/
theorem lossy_eq_false
    : (parseDoc tables relPath raw).lossy = false
      ↔ ('\uFFFD' ∈ decoded raw → REPLACEMENT <:+: raw)
        ∧ 0 ∉ raw ∧ (utf8 (decoded raw)).length ≤ BODY_CAP_BYTES := by
  have filled : (decoded raw).contains '\x00' = true ↔ 0 ∈ raw := by
    rw [List.contains_iff_mem, decoded, nul_mem_decodeReplacing]
  by_cases nul : 0 ∈ raw
  · have lost : (parseDoc tables relPath raw).lossy = true := by
      simp only [parseDoc, filled.mpr nul, Bool.or_true, Bool.true_or]
    simp only [lost, nul, Bool.true_eq_false, not_true_eq_false, false_and, and_false]
  · have free : (decoded raw).contains '\x00' = false := by
      rw [Bool.eq_false_iff, Ne, filled]
      exact nul
    simp only [parseDoc, free, nul, Bool.or_false, Bool.or_eq_false_iff, Bool.and_eq_false_iff,
      Bool.not_eq_eq_eq_not, Bool.not_false, replacementBytes_iff, decide_eq_false_iff_not,
      Nat.not_lt, not_false_eq_true, true_and, Bool.false_eq_true, if_false]
    refine and_congr_left' ?_
    rw [← Bool.not_eq_true, List.contains_iff_mem, imp_iff_not_or]

/-- Without a loss the body is the decoded text. -/
theorem body_eq (kept : (parseDoc tables relPath raw).lossy = false)
    : (parseDoc tables relPath raw).body = decoded raw := by
  obtain ⟨_, free, short⟩ := lossy_eq_false.mp kept
  have clean : (decoded raw).contains '\x00' = false := by
    rw [← Bool.not_eq_true, List.contains_iff_mem, decoded, nul_mem_decodeReplacing]
    exact free
  simp only [parseDoc, clean, Bool.false_eq_true, if_false]
  rw [if_neg (Nat.not_lt.mpr short)]

/-- The files on which the flag tells a lost byte: UTF-8, and those of which no replacement
character of their own hides that others were put in.
-/
def Told (raw : Bytes) : Prop :=
  (∃ text, utf8 text = raw) ∨ ¬REPLACEMENT <:+: raw ∨ 0 ∈ raw
  ∨ BODY_CAP_BYTES < (utf8 (decoded raw)).length

/-- What is no UTF-8 has a replacement character. -/
theorem replacement_mem_decoded (invalid : ¬∃ text, utf8 text = raw) : '\uFFFD' ∈ decoded raw := by
  by_contra absent
  rw [decoded, replacement_mem_decodeReplacing] at absent
  exact invalid ⟨_, utf8_decodeReplacing absent⟩

theorem decoded_eq (lossless : utf8 (decoded raw) = raw) (free : 0 ∉ raw)
    (limit : raw.length ≤ BODY_CAP_BYTES)
    : (parseDoc tables relPath raw).lossy = false := by
  refine lossy_eq_false.mpr ⟨fun mem => ?_, free, ?_⟩
  · exact lossless ▸ replacement_infix mem
  · rwa [lossless]

/-- The flag is exact for the decoded text just where it is told and no NUL is dropped from UTF-8;
and it is exact for the body that is kept just where it is told.
-/
theorem parseDoc_lossy_iff (tables : Tables) (relPath : Str) (raw : Bytes)
    (limit : raw.length ≤ BODY_CAP_BYTES)
    : (((parseDoc tables relPath raw).lossy = false ↔ utf8 (decoded raw) = raw)
        ↔ Told raw ∧ ((∃ text, utf8 text = raw) → 0 ∉ raw))
      ∧ (((parseDoc tables relPath raw).lossy = false
            ↔ utf8 (parseDoc tables relPath raw).body = raw)
          ↔ Told raw) := by
  by_cases valid : ∃ text, utf8 text = raw
  · have lossless : utf8 (decoded raw) = raw := utf8_decodeReplacing_iff.mpr valid
    have told : Told raw := .inl valid
    constructor
    · have flag : (parseDoc tables relPath raw).lossy = false ↔ 0 ∉ raw :=
        ⟨fun kept => (lossy_eq_false.mp kept).2.1, fun free => decoded_eq lossless free limit⟩
      simp only [flag, lossless, iff_true, told, valid, true_and, forall_const]
    · refine iff_of_true ⟨fun kept => ?_, fun same => ?_⟩ told
      · rw [body_eq kept, lossless]
      · refine decoded_eq lossless (fun nul => ?_) limit
        rw [← same, nul_utf8] at nul
        exact nul_not_mem_body nul
  · have lossy : utf8 (decoded raw) ≠ raw := fun same => valid ⟨_, same⟩
    have lossy' : utf8 (parseDoc tables relPath raw).body ≠ raw := fun same => valid ⟨_, same⟩
    have flag : (parseDoc tables relPath raw).lossy = false ↔ ¬Told raw := by
      rw [lossy_eq_false, Told]
      have mem := replacement_mem_decoded valid
      simp only [mem, true_imp_iff, valid, false_or, not_or, not_not, Nat.not_lt]
    constructor
    · simp only [flag, lossy, iff_false, not_not, valid, false_imp_iff, and_true]
    · simp only [flag, lossy', iff_false, not_not]

/-- The bytes of a replacement character and a byte that is no UTF-8. -/
def sampleRaw : Bytes :=
  [0xEF, 0xBF, 0xBD, 0xFF]

def Tables.sample : Tables where
  isDecimal := Char.isDigit
  sha256 _ := "efa30d0b1cb3bcdc0aa96a7882c4aac1b75428790bf214d4fe7c22c1fed1ebc6".toList

theorem parseDoc_lossy_iff_sample
    : sampleRaw.length ≤ BODY_CAP_BYTES
      ∧ ((((parseDoc .sample "a.md".toList sampleRaw).lossy = false
            ↔ utf8 (decoded sampleRaw) = sampleRaw)
          ↔ Told sampleRaw ∧ ((∃ text, utf8 text = sampleRaw) → 0 ∉ sampleRaw))
        ∧ (((parseDoc .sample "a.md".toList sampleRaw).lossy = false
              ↔ utf8 (parseDoc .sample "a.md".toList sampleRaw).body = sampleRaw)
            ↔ Told sampleRaw)) :=
  ⟨by decide, parseDoc_lossy_iff .sample "a.md".toList sampleRaw (by decide)⟩

/-- The replacement character of the file hides the one that stands for its last byte. -/
theorem parseDoc_hides_loss
    : ¬((parseDoc .sample "a.md".toList sampleRaw).lossy = false
        ↔ utf8 (decoded sampleRaw) = sampleRaw) := by
  have unflagged : (parseDoc .sample "a.md".toList sampleRaw).lossy = false := by decide +kernel
  have lost : utf8 (decoded sampleRaw) ≠ sampleRaw := by decide +kernel
  exact fun exact => lost (exact.mp unflagged)

end Corpus
