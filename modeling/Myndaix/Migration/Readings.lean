import Myndaix.Migration.Scanner
import Myndaix.Text.Records

/-! The lexical grammar of migrations: a text is read as characters of code and tokens that hide
theirs. The scanner shows each token by its kind and keeps all of the code.
-/

namespace Migration

open Inbox (Str)
open Outcomes (isSpace strip)

-- The bodies of literals, names and comments

/-- A body between quotes: a quote is doubled, or escaped where backslashes escape. -/
inductive Quoted (quote : Char) (escape : Bool) : Str → Prop
  | nil : Quoted quote escape []
  | plain {char rest} (other : char ≠ quote) (literal : escape → char ≠ '\\')
    (behind : Quoted quote escape rest)
    : Quoted quote escape (char :: rest)
  | doubled {rest} (behind : Quoted quote escape rest)
    : Quoted quote escape (quote :: quote :: rest)
  | escaped {char rest} (on : escape) (behind : Quoted quote escape rest)
    : Quoted quote escape ('\\' :: char :: rest)

/-- The body of a block comment. What is inside it is nested, and nothing else in it looks like the
begin or the end of a comment, also not together with the end of this one.
-/
inductive Balanced : Str → Prop
  | nil : Balanced []
  | plain {char rest} (opens : char = '/' → (rest ++ ['*']).head? ≠ some '*')
    (closes : char = '*' → rest.head? ≠ some '/') (behind : Balanced rest)
    : Balanced (char :: rest)
  | nested {inner rest} (inside : Balanced inner) (behind : Balanced rest)
    : Balanced ('/' :: '*' :: (inner ++ '*' :: '/' :: rest))

/-- A quote is closed in front of the rest, or not at all. -/
def Closes (quote : Char) (escape : Bool) (body : Str) (rest : Str) : Bool → Prop
  | true => Quoted quote escape body ∧ rest.head? ≠ some quote
  | false =>
      rest = []
      ∧ ∀ inner after,
          Quoted quote escape inner
          → after.head? ≠ some quote
          → body ≠ inner ++ quote :: after

def closing (quote : Char) (closed : Bool) : Str :=
  if closed then [quote] else []

@[simp] theorem reading_reading (front middle : Str) (behind : Str × Str)
    : reading front (reading middle behind) = reading (front ++ middle) behind := by
  simp [reading]

@[simp] theorem reading_mk (read taken left : Str)
    : reading read (taken, left) = (read ++ taken, left) :=
  rfl

section Quotes

variable {quote : Char} {escape : Bool} {body rest : Str}

theorem scanQuoted_closing (rest : Str) (alone : rest.head? ≠ some quote) (special : quote ≠ '\\')
    : scanQuoted quote escape (quote :: rest) = ([quote], rest) := by
  cases rest with
  | nil => rfl
  | cons next rest =>
      have other : next ≠ quote := by simpa using alone
      simp [scanQuoted, special, other]

/-- Each step of the body is a step of the scanner, by induction on the body. -/
theorem scanQuoted_closed (quoted : Quoted quote escape body) (alone : rest.head? ≠ some quote)
    (special : quote ≠ '\\')
    : scanQuoted quote escape (body ++ quote :: rest) = (body ++ [quote], rest) := by
  induction quoted with
  | nil => exact scanQuoted_closing rest alone special
  | @plain char others other literal behind ih =>
      have escapes : (escape && char = '\\') = false := by
        cases escape with
        | false => rfl
        | true => simpa using literal rfl
      obtain ⟨next, tail, same⟩ := List.exists_cons_of_ne_nil
        (show others ++ quote :: rest ≠ [] by simp)
      rw [same] at ih
      simp [same, scanQuoted, escapes, other, ih]
  | doubled behind ih => simp [scanQuoted, special, ih]
  | escaped on behind ih =>
      subst on
      simp [scanQuoted, ih]

/-- Where the scanner does not stop at a quote that closes a body, it reads the whole text. -/
theorem scanQuoted_cases (quote : Char) (escape : Bool) (text : Str)
    : (∃ body rest,
        text = body ++ quote :: rest ∧ Quoted quote escape body ∧ rest.head? ≠ some quote)
      ∨ scanQuoted quote escape text = (text, []) := by
  fun_induction scanQuoted quote escape text with
  | case1 => exact .inr rfl
  | case2 char => exact .inr rfl
  | case3 char next rest escapes ih =>
      obtain ⟨on, rfl⟩ : escape ∧ char = '\\' := by simpa using escapes
      obtain ⟨body, left, rfl, quoted, alone⟩ | whole := ih
      · exact .inl ⟨_, left, rfl, .escaped on quoted, alone⟩
      · exact .inr (by rw [whole]; rfl)
  | case4 rest _ ih =>
      obtain ⟨body, left, rfl, quoted, alone⟩ | whole := ih
      · exact .inl ⟨_, left, rfl, .doubled quoted, alone⟩
      · exact .inr (by rw [whole]; rfl)
  | case5 next rest other _ => exact .inl ⟨[], _, rfl, .nil, by simpa using other⟩
  | case6 char next rest literal other ih =>
      obtain ⟨body, left, same, quoted, alone⟩ | whole := ih
      · refine .inl ⟨char :: body, left, by rw [same]; rfl, .plain other ?_ quoted, alone⟩
        intro on escapes
        exact literal (by simp [on, escapes])
      · exact .inr (by rw [whole]; rfl)

/-- The scanner closes a quote exactly as the grammar does. -/
theorem scanQuoted_closes {closed : Bool} (closes : Closes quote escape body rest closed)
    (special : quote ≠ '\\')
    : scanQuoted quote escape (body ++ closing quote closed ++ rest)
      = (body ++ closing quote closed, rest) := by
  cases closed with
  | true =>
      rw [List.append_assoc]
      exact scanQuoted_closed closes.1 closes.2 special
  | false =>
      obtain ⟨rfl, open_⟩ := closes
      obtain ⟨inner, after, same, quoted, alone⟩ | whole := scanQuoted_cases quote escape body
      · exact absurd same (open_ inner after quoted alone)
      · simpa [closing] using whole

theorem exists_closes (quote : Char) (escape : Bool) (text : Str)
    : ∃ body closed rest,
        text = body ++ closing quote closed ++ rest ∧ Closes quote escape body rest closed := by
  by_cases closes
      : ∃ body rest,
          text = body ++ quote :: rest ∧ Quoted quote escape body ∧ rest.head? ≠ some quote
  · obtain ⟨body, rest, same, quoted, alone⟩ := closes
    exact ⟨body, true, rest, by simp [same, closing], quoted, alone⟩
  · refine ⟨text, false, [], by simp [closing], rfl, fun inner after quoted alone same => ?_⟩
    exact closes ⟨inner, after, same, quoted, alone⟩

end Quotes

section Blocks

variable {body rest : Str}

/-- A balanced body ends one comment, at any depth; by induction on the body. -/
theorem scanBlock_balanced (balanced : Balanced body) (depth : Nat) (rest : Str)
    : scanBlock (depth + 1) (body ++ '*' :: '/' :: rest)
      = reading (body ++ ['*', '/']) (scanBlock depth rest) := by
  induction balanced generalizing depth rest with
  | nil => simp [scanBlock]
  | @plain char others opens closes behind ih =>
      have next := ih depth rest
      cases others with
      | nil =>
          have other : char ≠ '/' := fun slash => opens slash rfl
          simp [scanBlock, other]
      | cons second others =>
          have here : ¬(char = '/' ∧ second = '*') := fun marks => opens marks.1 (by simp [marks.2])
          have there : ¬(char = '*' ∧ second = '/') := fun marks =>
            closes marks.1 (by simp [marks.2])
          simp only [List.cons_append] at next ⊢
          simp [scanBlock, here, there, next]
  | @nested inner others inside behind ihInside ihBehind =>
      have across : inner ++ '*' :: '/' :: others ++ '*' :: '/' :: rest
          = inner ++ '*' :: '/' :: (others ++ '*' :: '/' :: rest) := by simp
      simp only [List.cons_append, across]
      simp [scanBlock, ihInside, ihBehind]

/-- As many balanced bodies as there are comments to end, or no end; by the cases of the scanner. -/
theorem scanBlock_cases (depth : Nat) (text : Str)
    : (∃ (bodies : List Str) (rest : Str),
        bodies.length = depth
        ∧ (∀ body ∈ bodies, Balanced body)
        ∧ text = bodies.flatMap (· ++ ['*', '/']) ++ rest)
      ∨ scanBlock depth text = (text, []) := by
  fun_induction scanBlock depth text with
  | case1 text => exact .inl ⟨[], text, rfl, by simp, rfl⟩
  | case2 => exact .inr rfl
  | case3 depth char => exact .inr rfl
  | case4 depth char next rest marks ih =>
      obtain ⟨rfl, rfl⟩ : char = '/' ∧ next = '*' := by simpa using marks
      obtain ⟨bodies, left, many, balanced, rfl⟩ | whole := ih
      · obtain ⟨inner, bodies, rfl⟩ := List.exists_cons_of_length_eq_add_one many
        have more : bodies.length = depth + 1 := by simpa using many
        obtain ⟨second, bodies, rfl⟩ := List.exists_cons_of_length_eq_add_one more
        simp only [List.forall_mem_cons] at balanced
        obtain ⟨inside, behind, balanced⟩ := balanced
        have nested : Balanced ('/' :: '*' :: (inner ++ '*' :: '/' :: second)) :=
          .nested inside behind
        have all := List.forall_mem_cons.mpr ⟨nested, balanced⟩
        exact .inl ⟨_, left, by simpa using more, all, by simp⟩
      · exact .inr (by rw [whole]; rfl)
  | case5 depth char next rest _ marks ih =>
      obtain ⟨rfl, rfl⟩ : char = '*' ∧ next = '/' := by simpa using marks
      obtain ⟨bodies, left, many, balanced, rfl⟩ | whole := ih
      · exact .inl ⟨[] :: bodies, left, by simp [many], by simpa using ⟨.nil, balanced⟩, by simp⟩
      · exact .inr (by rw [whole]; rfl)
  | case6 depth char next rest opens closes ih =>
      obtain ⟨bodies, left, many, balanced, same⟩ | whole := ih
      · obtain ⟨body, bodies, rfl⟩ := List.exists_cons_of_length_eq_add_one many
        obtain ⟨here, balanced⟩ := List.forall_mem_cons.mp balanced
        have first : (body ++ ['*', '/']).head? = some next := by
          rw [List.flatMap_cons, List.append_assoc, List.append_assoc] at same
          have head := congrArg List.head? same
          rw [← List.append_assoc, List.head?_append_of_ne_nil _ (by simp)] at head
          exact head.symm
        refine .inl ⟨(char :: body) :: bodies, left, by simpa using many, ?_, ?_⟩
        · refine List.forall_mem_cons.mpr ⟨.plain ?_ ?_ here, balanced⟩
          · intro isSlash star
            have same : next = '*' := by
              cases body with
              | nil => exact (Option.some.inj first).symm
              | cons second body => exact (Option.some.inj first).symm.trans (Option.some.inj star)
            exact opens (by simp [isSlash, same])
          · intro isStar slash
            have same : next = '/' := by
              cases body with
              | nil => cases slash
              | cons second body => exact (Option.some.inj first).symm.trans (Option.some.inj slash)
            exact closes (by simp [isStar, same])
        · rw [same]
          rfl
      · exact .inr (by rw [whole]; rfl)

/-- The scanner ends a comment exactly as the grammar does. -/
theorem scanBlock_one (body : Str)
    (open_ : ∀ inner after, Balanced inner → body ≠ inner ++ '*' :: '/' :: after)
    : scanBlock 1 body = (body, []) := by
  obtain ⟨bodies, rest, one, balanced, same⟩ | whole := scanBlock_cases 1 body
  · obtain ⟨inner, rfl⟩ := List.length_eq_one_iff.mp one
    exact absurd (by simpa using same) (open_ inner rest (balanced inner List.mem_cons_self))
  · exact whole

end Blocks

-- The tags of dollar quotes

/-- The tag of a dollar quote. -/
structure Tag (tag : Str) : Prop where
  chars : ∀ char ∈ tag, tagChar char
  first : ∀ char ∈ tag.head?, tagStart char

theorem dollarOpen_tag {tag : Str} (isTag : Tag tag) (body : Str)
    : dollarOpen (tag ++ '$' :: body) = some (tag, body) := by
  have dollar : tagChar '$' = false := by decide
  have kept : (tag ++ '$' :: body).takeWhile tagChar = tag := by
    rw [List.takeWhile_append_of_pos isTag.chars, List.takeWhile_cons_of_neg (by simp [dollar]),
      List.append_nil]
  have left : (tag ++ '$' :: body).dropWhile tagChar = '$' :: body := by
    rw [List.dropWhile_append_of_pos isTag.chars, List.dropWhile_cons_of_neg (by simp [dollar])]
  have first : tag.head?.all tagStart = true := by
    rw [Option.all_eq_true]
    exact isTag.first
  rw [dollarOpen, left, kept]
  exact if_pos first

theorem tag_of_dollarOpen {text tag body : Str} (opened : dollarOpen text = some (tag, body))
    : text = tag ++ '$' :: body ∧ Tag tag := by
  unfold dollarOpen at opened
  split at opened
  · rename_i behind
    dsimp only at opened
    split at opened
    · rename_i first
      cases opened
      have whole := List.takeWhile_append_dropWhile (p := tagChar) (l := text)
      rw [behind] at whole
      refine ⟨whole.symm, fun char mem => List.mem_takeWhile_imp mem, ?_⟩
      rw [Option.all_eq_true] at first
      exact first
    · cases opened
  · cases opened

-- Tokens

/-- What hides its text from the rules. A literal may have an `E` in front of it, and a name a `U&`;
what is not closed goes on to the end.
-/
inductive Token
  | line (body : Str)
  | block (body : Str) (closed : Bool)
  | literal (escapes : Option Char) (body : Str) (closed : Bool)
  | dollar (tag body : Str)
  | name (unicode : Option Char) (body : Str) (closed : Bool)
deriving DecidableEq, Repr

def Token.text : Token → Str
  | .line body => '-' :: '-' :: body
  | .block body closed => '/' :: '*' :: (body ++ if closed then ['*', '/'] else [])
  | .literal none body closed => '\'' :: (body ++ closing '\'' closed)
  | .literal (some char) body closed => char :: '\'' :: (body ++ closing '\'' closed)
  | .dollar tag body => '$' :: (tag ++ '$' :: body ++ dollarClose tag)
  | .name none body closed => '"' :: (body ++ closing '"' closed)
  | .name (some char) body closed => char :: '&' :: '"' :: (body ++ closing '"' closed)

/-- What the scanner shows of a token. -/
def Token.shown (keepQuoted : Bool) : Token → Str
  | .line _ | .block _ _ => " ".toList
  | .literal _ _ _ | .dollar _ _ => " '' ".toList
  | .name unicode body closed => showName keepQuoted unicode.isSome (body ++ closing '"' closed)

/-- The letter in front of a quote: it does not go on with a word. -/
def Letter (letters : List Char) (prev : Option Char) (letter : Option Char) : Prop :=
  ∀ char ∈ letter, char ∈ letters ∧ prev.any identChar = false

/-- The token stands behind the previous character of the text, and in front of the rest. -/
def Token.Fits (prev : Option Char) (rest : Str) : Token → Prop
  | .line body => (∀ char ∈ body, isLineEnd char = false) ∧ ∀ char ∈ rest.head?, isLineEnd char
  | .block body true => Balanced body
  | .block body false =>
      rest = [] ∧ ∀ inner after, Balanced inner → body ≠ inner ++ '*' :: '/' :: after
  | .literal escapes body closed =>
      Letter ['E', 'e'] prev escapes ∧ Closes '\'' escapes.isSome body rest closed
  | .dollar tag body =>
      prev.any identChar = false ∧ Tag tag ∧ ¬dollarClose tag <:+: body ++ '$' :: tag
  | .name unicode body closed =>
      Letter ['U', 'u'] prev unicode ∧ Closes '"' false body rest closed

section Tokens

variable {prev : Option Char} {rest : Str}

theorem scanLine_append {body : Str} (within : ∀ char ∈ body, isLineEnd char = false)
    (ends : ∀ char ∈ rest.head?, isLineEnd char)
    : scanLine (body ++ rest) = (body, rest) := by
  have inside : ∀ char ∈ body, (!isLineEnd char) = true := fun char mem => by
    simp [within char mem]
  have taken : rest.takeWhile (!isLineEnd ·) = [] ∧ rest.dropWhile (!isLineEnd ·) = rest := by
    cases rest with
    | nil => exact ⟨rfl, rfl⟩
    | cons char rest => simp [ends char rfl]
  rw [scanLine, List.takeWhile_append_of_pos inside, List.dropWhile_append_of_pos inside, taken.1,
    taken.2, List.append_nil]

theorem scanDollar_append {tag body : Str} (rest : Str) (isTag : Tag tag)
    (first : ¬dollarClose tag <:+: body ++ '$' :: tag)
    : scanDollar (tag ++ '$' :: body ++ dollarClose tag ++ rest)
      = some (tag ++ '$' :: body ++ dollarClose tag, rest) := by
  have opened := dollarOpen_tag isTag (body ++ dollarClose tag ++ rest)
  have whole : tag ++ '$' :: body ++ dollarClose tag ++ rest
      = tag ++ '$' :: (body ++ dollarClose tag ++ rest) := by simp
  rw [whole, scanDollar, opened]
  have cut : Text.lsplit (dollarClose tag) (body ++ dollarClose tag ++ rest) = some (body, rest) :=
    Text.lsplit_first rest first
  simp only [cut, Option.map_some]

/-- A round reads the token that fits, by the kinds of tokens. -/
theorem round_token (keepQuoted : Bool) {token : Token} (fits : token.Fits prev rest)
    : ∃ char behind,
        token.text ++ rest = char :: behind
        ∧ round keepQuoted prev char behind = ⟨token.shown keepQuoted, token.text, rest⟩ := by
  cases token with
  | line body =>
      refine ⟨_, _, rfl, ?_⟩
      simp [round, Round.of, Token.text, Token.shown, scanLine_append fits.1 fits.2]
  | block body closed =>
      refine ⟨_, _, rfl, ?_⟩
      cases closed with
      | true =>
          have ended := scanBlock_balanced fits 0 rest
          simp [round, Round.of, Token.text, Token.shown, ended, scanBlock]
      | false =>
          obtain ⟨rfl, open_⟩ := fits
          simp [round, Round.of, Token.text, Token.shown, scanBlock_one body open_]
  | literal escapes body closed =>
      obtain ⟨letter, closes⟩ := fits
      have scanned := scanQuoted_closes closes (by decide)
      rw [List.append_assoc] at scanned
      cases escapes with
      | none =>
          rw [Option.isSome_none] at scanned
          refine ⟨_, _, rfl, ?_⟩
          simp [round, Round.of, Token.text, Token.shown, scanned]
      | some char =>
          rw [Option.isSome_some] at scanned
          obtain ⟨among, apart⟩ := letter char rfl
          refine ⟨_, _, rfl, ?_⟩
          rcases List.mem_pair.mp among with rfl | rfl
          <;> simp [round, Round.of, Token.text, Token.shown, scanned, apart]
  | dollar tag body =>
      obtain ⟨apart, isTag, first⟩ := fits
      have scanned := scanDollar_append rest isTag first
      refine ⟨_, _, rfl, ?_⟩
      simp only [List.append_assoc, List.cons_append] at scanned
      simp [round, Round.of, Token.text, Token.shown, scanned, apart]
  | name unicode body closed =>
      obtain ⟨letter, closes⟩ := fits
      have scanned := scanQuoted_closes closes (by decide)
      rw [List.append_assoc] at scanned
      cases unicode with
      | none =>
          refine ⟨_, _, rfl, ?_⟩
          simp [round, Round.of, Token.text, Token.shown, scanned]
      | some char =>
          obtain ⟨among, apart⟩ := letter char rfl
          refine ⟨_, _, rfl, ?_⟩
          rcases List.mem_pair.mp among with rfl | rfl
          <;> simp [round, Round.of, Token.text, Token.shown, scanned, apart]

theorem Closes.inj {quote : Char} {escape closed otherClosed : Bool} {body other : Str}
    (closes : Closes quote escape body rest closed)
    (otherCloses : Closes quote escape other rest otherClosed)
    (same : body ++ closing quote closed = other ++ closing quote otherClosed)
    : body = other ∧ closed = otherClosed := by
  cases closed with
  | true =>
      cases otherClosed with
      | true => exact ⟨List.append_cancel_right same, rfl⟩
      | false =>
          exact absurd (by simpa [closing] using same.symm) (otherCloses.2 body [] closes.1 nofun)
  | false =>
      cases otherClosed with
      | true => exact absurd (by simpa [closing] using same) (closes.2 other [] otherCloses.1 nofun)
      | false => exact ⟨List.append_cancel_right same, rfl⟩

theorem Letter.ne {letters : List Char} {letter char : Char}
    (isLetter : Letter letters prev (some letter)) (other : char ∉ letters)
    : letter ≠ char :=
  fun same => other (same ▸ (isLetter letter rfl).1)

theorem block_inj {body other : Str} {closed otherClosed : Bool}
    (fits : (Token.block body closed).Fits prev rest)
    (otherFits : (Token.block other otherClosed).Fits prev rest)
    (same : (Token.block body closed).text = (Token.block other otherClosed).text)
    : Token.block body closed = Token.block other otherClosed := by
  simp only [Token.text, List.cons.injEq, true_and] at same
  cases closed with
  | true =>
      cases otherClosed with
      | true => rw [List.append_cancel_right same]
      | false => exact absurd (by simpa using same.symm) (otherFits.2 body [] fits)
  | false =>
      cases otherClosed with
      | true => exact absurd (by simpa using same) (fits.2 other [] otherFits)
      | false => rw [List.append_cancel_right same]

theorem dollar_inj {tag other body otherBody : Str} (fits : (Token.dollar tag body).Fits prev rest)
    (otherFits : (Token.dollar other otherBody).Fits prev rest)
    (same : (Token.dollar tag body).text = (Token.dollar other otherBody).text)
    : Token.dollar tag body = Token.dollar other otherBody := by
  simp only [Token.text, List.cons.injEq, true_and, List.append_assoc, List.cons_append] at same
  have opened := dollarOpen_tag fits.2.1 (body ++ dollarClose tag)
  rw [same, dollarOpen_tag otherFits.2.1] at opened
  obtain ⟨rfl, bodies⟩ := Prod.mk.inj (Option.some.inj opened)
  rw [List.append_cancel_right bodies]

/-- The text of a token tells which token it is, by the kinds of tokens. -/
theorem Token.Fits.inj {token other : Token} (fits : token.Fits prev rest)
    (otherFits : other.Fits prev rest) (same : token.text = other.text)
    : token = other := by
  cases token with
  | line body =>
      rcases other with _ | _ | ⟨_ | _, _, _⟩ | _ | ⟨_ | _, _, _⟩
      <;> simp [Token.text] at same
      rw [same]
  | block body closed =>
      rcases other with _ | _ | ⟨_ | _, _, _⟩ | _ | ⟨_ | _, _, _⟩
      case block => exact block_inj fits otherFits same
      all_goals simp [Token.text] at same
  | literal escapes body closed =>
      rcases escapes with _ | letter
      <;> rcases other with _ | _ | ⟨_ | _, _, _⟩ | _ | ⟨_ | _, _, _⟩
      <;> simp [Token.text] at same
      · obtain ⟨rfl, rfl⟩ := fits.2.inj otherFits.2 same
        rfl
      · exact absurd same.1.symm (Letter.ne otherFits.1 (by decide))
      · exact absurd same.1.symm (Letter.ne otherFits.1 (by decide))
      · exact absurd same.1 (Letter.ne fits.1 (by decide))
      · obtain ⟨rfl, rfl⟩ := fits.2.inj otherFits.2 same.2
        rw [same.1]
      · exact absurd same.1 (Letter.ne fits.1 (by decide))
      · exact absurd same.1 (Letter.ne fits.1 (by decide))
  | dollar tag body =>
      rcases other with _ | _ | ⟨_ | _, _, _⟩ | _ | ⟨_ | _, _, _⟩
      case dollar => exact dollar_inj fits otherFits same
      all_goals simp [Token.text] at same
      · exact absurd same.1.symm (Letter.ne otherFits.1 (by decide))
      · exact absurd same.1.symm (Letter.ne otherFits.1 (by decide))
  | name unicode body closed =>
      rcases unicode with _ | letter
      <;> rcases other with _ | _ | ⟨_ | _, _, _⟩ | _ | ⟨_ | _, _, _⟩
      <;> simp [Token.text] at same
      · exact absurd same.1.symm (Letter.ne otherFits.1 (by decide))
      · obtain ⟨rfl, rfl⟩ := fits.2.inj otherFits.2 same
        rfl
      · exact absurd same.1.symm (Letter.ne otherFits.1 (by decide))
      · exact absurd same.1 (Letter.ne fits.1 (by decide))
      · exact absurd same.1 (Letter.ne fits.1 (by decide))
      · exact absurd same.1 (Letter.ne fits.1 (by decide))
      · obtain ⟨rfl, rfl⟩ := fits.2.inj otherFits.2 same.2
        rw [same.1]

theorem exists_block (prev : Option Char) (text : Str)
    : ∃ body closed after,
        text = body ++ (if closed then ['*', '/'] else []) ++ after
        ∧ (Token.block body closed).Fits prev after := by
  by_cases closes : ∃ inner after, Balanced inner ∧ text = inner ++ '*' :: '/' :: after
  · obtain ⟨inner, after, balanced, rfl⟩ := closes
    exact ⟨inner, true, after, by simp, balanced⟩
  · refine ⟨text, false, [], by simp, rfl, fun inner after balanced same => ?_⟩
    exact closes ⟨inner, after, balanced, same⟩

theorem exists_dollar {text : Str} {span : Str × Str} (scanned : scanDollar text = some span)
    (apart : prev.any identChar = false)
    : ∃ tag body,
        '$' :: text = (Token.dollar tag body).text ++ span.2
        ∧ (Token.dollar tag body).Fits prev span.2 := by
  unfold scanDollar at scanned
  split at scanned
  · cases scanned
  · rename_i tag body opened
    obtain ⟨rfl, isTag⟩ := tag_of_dollarOpen opened
    obtain ⟨⟨inner, after⟩, cut, rfl⟩ := Option.map_eq_some_iff.mp scanned
    obtain ⟨rfl, first⟩ := Text.lsplit_some cut
    exact ⟨tag, inner, by simp [Token.text, dollarClose], apart, isTag, first⟩

/-- A round reads a token or one character of code, by the branches of the loop. -/
theorem round_cases (keepQuoted : Bool) (prev : Option Char) (char : Char) (rest : Str)
    : (∃ (token : Token) (after : Str), char :: rest = token.text ++ after ∧ token.Fits prev after)
      ∨ round keepQuoted prev char rest = ⟨[char], [char], rest⟩ := by
  unfold round
  split_ifs with dashes slash dollar escapes literal unicode name
  · obtain ⟨rfl, next⟩ : char = '-' ∧ rest.head? = some '-' := by simpa using dashes
    obtain ⟨rest, rfl⟩ := List.head?_eq_some_iff.mp next
    refine .inl ⟨.line (rest.takeWhile (!isLineEnd ·)), rest.dropWhile (!isLineEnd ·), ?_, ?_, ?_⟩
    · simp [Token.text]
    · intro char mem
      simpa using List.mem_takeWhile_imp mem
    · intro char first
      have stopped := List.head?_dropWhile_not (!isLineEnd ·) rest
      rw [Option.mem_def.mp first] at stopped
      simpa using stopped
  · obtain ⟨rfl, next⟩ : char = '/' ∧ rest.head? = some '*' := by simpa using slash
    obtain ⟨rest, rfl⟩ := List.head?_eq_some_iff.mp next
    obtain ⟨body, closed, after, same, fits⟩ := exists_block prev rest
    exact .inl ⟨.block body closed, after, by rw [same]; simp [Token.text], fits⟩
  · obtain ⟨rfl, apart⟩ : char = '$' ∧ prev.any identChar = false := by simpa using dollar
    cases scanned : scanDollar rest with
    | none => exact .inr rfl
    | some span =>
        obtain ⟨tag, body, same, fits⟩ := exists_dollar scanned apart
        exact .inl ⟨.dollar tag body, span.2, same, fits⟩
  · obtain ⟨⟨letter, next⟩, apart⟩
        : ((char = 'E' ∨ char = 'e') ∧ rest.head? = some '\'') ∧ prev.any identChar = false := by
      simpa using escapes
    obtain ⟨rest, rfl⟩ := List.head?_eq_some_iff.mp next
    obtain ⟨body, closed, after, rfl, closes⟩ := exists_closes '\'' true rest
    refine .inl ⟨.literal (some char) body closed, after, by simp [Token.text], ?_, closes⟩
    intro other same
    cases same
    exact ⟨List.mem_pair.mpr letter, apart⟩
  · subst literal
    obtain ⟨body, closed, after, rfl, closes⟩ := exists_closes '\'' false rest
    exact .inl ⟨.literal none body closed, after, by simp [Token.text], by simp [Letter], closes⟩
  · obtain ⟨⟨letter, next⟩, apart⟩
        : ((char = 'U' ∨ char = 'u') ∧ rest.take 2 = "&\"".toList)
          ∧ prev.any identChar = false := by
      simpa using unicode
    obtain ⟨body, closed, after, same, closes⟩ := exists_closes '"' false (rest.drop 2)
    refine .inl ⟨.name (some char) body closed, after, ?_, ?_, closes⟩
    · rw [← List.take_append_drop 2 rest, next, same]
      simp [Token.text]
    · intro other same
      cases same
      exact ⟨List.mem_pair.mpr letter, apart⟩
  · subst name
    obtain ⟨body, closed, after, rfl, closes⟩ := exists_closes '"' false rest
    exact .inl ⟨.name none body closed, after, by simp [Token.text], by simp [Letter], closes⟩
  · exact .inr rfl

end Tokens

-- Readings

inductive Item
  | code (char : Char)
  | hidden (token : Token)
deriving DecidableEq, Repr

def Item.text : Item → Str
  | .code char => [char]
  | .hidden token => token.text

def Item.shown (keepQuoted : Bool) : Item → Str
  | .code char => [char]
  | .hidden token => token.shown keepQuoted

/-- The items of a text behind this character. A character is code only where no token begins with
it.
-/
inductive Reads : Option Char → Str → List Item → Prop
  | nil {prev} : Reads prev [] []
  | code {prev char rest items}
    (plain
      : ∀ (token : Token) (after : Str),
          token.Fits prev after → char :: rest ≠ token.text ++ after)
    (behind : Reads (some char) rest items)
    : Reads prev (char :: rest) (.code char :: items)
  | hidden {prev rest items} {token : Token} (fits : token.Fits prev rest)
    (behind : Reads token.text.getLast? rest items)
    : Reads prev (token.text ++ rest) (.hidden token :: items)

section Readings

variable {prev : Option Char} {sql : Str} {items : List Item} {keepQuoted : Bool}

theorem Token.text_ne_nil (token : Token) : token.text ≠ [] := by
  rcases token with _ | _ | ⟨_ | _, _, _⟩ | _ | ⟨_ | _, _, _⟩ <;> exact List.cons_ne_nil _ _

/-- Most characters begin no token. -/
theorem Reads.ordinary {char : Char} {rest : Str} (ordinary : char ∉ "-/$'\"EeUu".toList)
    (behind : Reads (some char) rest items)
    : Reads prev (char :: rest) (.code char :: items) := by
  refine .code (fun token after fits same => ordinary ?_) behind
  have first : token.text.head? = some char := by
    have head := congrArg List.head? same
    rw [List.head?_append_of_ne_nil _ token.text_ne_nil] at head
    exact head.symm
  rcases token with _ | _ | ⟨_ | letter, _, _⟩ | _ | ⟨_ | letter, _, _⟩
  all_goals obtain rfl := Option.some.inj first
  case literal.some =>
    rcases List.mem_pair.mp (fits.1 letter rfl).1 with rfl | rfl <;> decide
  case name.some =>
    rcases List.mem_pair.mp (fits.1 letter rfl).1 with rfl | rfl <;> decide
  all_goals decide

/-- The items of a reading are the whole text. -/
theorem Reads.text (reads : Reads prev sql items) : sql = items.flatMap Item.text := by
  induction reads with
  | nil => rfl
  | code plain behind ih =>
      rw [List.flatMap_cons, ← ih]
      rfl
  | hidden fits behind ih =>
      rw [List.flatMap_cons, ← ih]
      rfl

/-- Every text has a reading, by induction on its length. -/
theorem exists_reads (prev : Option Char) (sql : Str) : ∃ items, Reads prev sql items := by
  induction length : sql.length using Nat.strong_induction_on generalizing prev sql with
  | _ _ ih =>
      cases sql with
      | nil => exact ⟨[], .nil⟩
      | cons char rest =>
          by_cases begins : ∃ (token : Token) (after : Str),
              token.Fits prev after ∧ char :: rest = token.text ++ after
          · obtain ⟨token, after, fits, same⟩ := begins
            have shorter : after.length < (char :: rest).length := by
              rw [same, List.length_append]
              have filled := List.length_pos_iff.mpr token.text_ne_nil
              omega
            obtain ⟨items, behind⟩ := ih _ (length ▸ shorter) token.text.getLast? after rfl
            rw [same]
            exact ⟨_, .hidden fits behind⟩
          · have shorter : rest.length < (char :: rest).length := Nat.lt_succ_self _
            obtain ⟨items, behind⟩ := ih _ (length ▸ shorter) (some char) rest rfl
            exact ⟨_, .code (fun token after fits same => begins ⟨token, after, fits, same⟩) behind⟩

/-- A token that fits is all that can be read there. -/
theorem Token.Fits.only {token other : Token} {rest after : Str} (fits : token.Fits prev rest)
    (otherFits : other.Fits prev after) (same : token.text ++ rest = other.text ++ after)
    : token = other ∧ rest = after := by
  obtain ⟨_, _, here, round_⟩ := round_token true fits
  obtain ⟨_, _, there, otherRound⟩ := round_token true otherFits
  obtain ⟨rfl, rfl⟩ := List.cons.inj (here.symm.trans (same.trans there))
  obtain ⟨-, texts, rfl⟩ := Round.mk.inj (round_.symm.trans otherRound)
  exact ⟨fits.inj otherFits texts, rfl⟩

/-- A text has one reading, by induction on it. -/
theorem Reads.inj (reads : Reads prev sql items) {others : List Item}
    (readsOther : Reads prev sql others)
    : items = others := by
  induction reads generalizing others with
  | nil =>
      generalize empty : ([] : Str) = sql at readsOther
      cases readsOther with
      | nil => rfl
      | code => cases empty
      | @hidden _ _ _ token =>
          exact absurd (List.append_eq_nil_iff.mp empty.symm).1 token.text_ne_nil
  | @code prev char rest items plain behind ih =>
      generalize whole : char :: rest = sql at readsOther
      cases readsOther with
      | nil => cases whole
      | code _ readsOther =>
          cases whole
          rw [ih readsOther]
      | hidden fits _ => exact absurd whole (plain _ _ fits)
  | @hidden prev rest items token fits behind ih =>
      generalize whole : token.text ++ rest = sql at readsOther
      cases readsOther with
      | nil => exact absurd (List.append_eq_nil_iff.mp whole).1 token.text_ne_nil
      | code plain _ => exact absurd whole.symm (plain _ _ fits)
      | hidden otherFits readsOther =>
          obtain ⟨rfl, rfl⟩ := fits.only otherFits whole
          rw [ih readsOther]

/-- The loop shows the items one after the other, by induction on the reading. -/
theorem scanFrom_reads (reads : Reads prev sql items) (fuel : Nat) (enough : sql.length ≤ fuel)
    : scanFrom keepQuoted fuel prev sql = items.flatMap (Item.shown keepQuoted) := by
  induction reads generalizing fuel with
  | nil => cases fuel <;> rfl
  | @code prev char rest items plain behind ih =>
      obtain ⟨fuel, rfl⟩ := Nat.exists_eq_add_one.mpr (Nat.lt_of_lt_of_le (Nat.succ_pos _) enough)
      have round_ : round keepQuoted prev char rest = ⟨[char], [char], rest⟩ := by
        obtain ⟨token, after, same, fits⟩ | round_ := round_cases keepQuoted prev char rest
        · exact absurd same (plain token after fits)
        · exact round_
      have onward := ih fuel (by simpa using enough)
      simpa [scanFrom, round_, Item.shown] using onward
  | @hidden prev rest items token fits behind ih =>
      obtain ⟨char, after, same, round_⟩ := round_token keepQuoted fits
      have filled := List.length_pos_iff.mpr token.text_ne_nil
      rw [List.length_append] at enough
      obtain ⟨fuel, rfl⟩ := Nat.exists_eq_add_one.mpr (show 0 < fuel by omega)
      have onward := ih fuel (by omega)
      rw [same]
      simpa [scanFrom, round_, Item.shown] using onward

theorem normalize_reads (keepQuoted : Bool) (reads : Reads none sql items)
    : normalize keepQuoted sql = collapse (items.flatMap (Item.shown keepQuoted)) := by
  rw [normalize, scanFrom_reads reads _ (Nat.le_refl _)]

/-- Every text is the texts of items, in just one way, and the scanner shows exactly them: all of
the code, and of comments, literals and names nothing but that they are there.
-/
theorem normalize_reading (keepQuoted : Bool) (sql : Str)
    : ∃ items,
        (∀ others, Reads none sql others ↔ others = items)
        ∧ sql = items.flatMap Item.text
        ∧ normalize keepQuoted sql = collapse (items.flatMap (Item.shown keepQuoted)) := by
  obtain ⟨items, reads⟩ := exists_reads none sql
  refine ⟨items, fun others => ⟨fun other => other.inj reads, ?_⟩, reads.text, ?_⟩
  · intro same
    exact same ▸ reads
  · exact normalize_reads keepQuoted reads

end Readings

-- Statements

section Statements

theorem collapse_across (front tail : Str)
    : collapse (front ++ ';' :: tail) = collapse front ++ ';' :: collapse tail := by
  have solid : isSpace ';' = false := by decide
  rw [collapse, Text.squeeze_across solid, Text.tighten_across solid (by decide)]
  rfl

theorem collapse_clean (text : Str) (clean : ';' ∉ text) : ';' ∉ collapse text := by
  intro mem
  have squeezed := (Text.tighten_sublist _ _).subset mem
  exact (Text.squeeze_subset squeezed).elim (by decide) clean

theorem Item.shown_clean {item : Item} (other : item ≠ .code ';') : ';' ∉ item.shown false := by
  cases item with
  | code char =>
      intro mem
      exact other (congrArg Item.code (List.mem_singleton.mp mem).symm)
  | hidden token => cases token <;> simp [Item.shown, Token.shown, showName]

/-- Only a semicolon of the code is shown as one, by induction on the items. -/
theorem splitOn_shown (items : List Item)
    : (items.flatMap (Item.shown false)).splitOn ';'
      = (items.splitOn (.code ';')).map fun group => group.flatMap (Item.shown false) := by
  induction items with
  | nil => rfl
  | cons item items ih =>
      by_cases isEnd : item = .code ';'
      · subst isEnd
        simp [List.splitOn_cons_eq_if_modifyHead, Item.shown, ← ih]
      · obtain ⟨group, groups, split⟩ :=
          List.exists_cons_of_ne_nil (List.splitOn_ne_nil (Item.code ';') items)
        rw [List.flatMap_cons, Text.splitOn_append_clean (Item.shown_clean isEnd), ih,
          List.splitOn_cons_eq_if_modifyHead, if_neg (by simpa using isEnd), split]
        simp

/-- A file is split into statements exactly at the semicolons of its code: none in a comment, a
literal or a quoted name ends a statement, and none of the code is lost.
-/
theorem statements_reads {sql : Str} {items : List Item} (reads : Reads none sql items)
    : statements sql
      = (items.splitOn (.code ';')).map fun group =>
          strip (collapse (group.flatMap (Item.shown false))) := by
  rw [statements, normalize_reads false reads,
    Text.splitOn_mapped collapse_across collapse_clean, splitOn_shown, List.map_map, List.map_map]
  rfl

/-- `a;'b;'`. -/
def sampleItems (hidden : Str) : List Item :=
  [.code 'a', .code ';', .hidden (.literal none hidden true)]

theorem sampleItems_reads {hidden : Str} (quoted : Quoted '\'' false hidden)
    : Reads none ('a' :: ';' :: '\'' :: (hidden ++ ['\''])) (sampleItems hidden) := by
  have fits : (Token.literal none hidden true).Fits (some ';') [] :=
    ⟨by simp [Letter], quoted, by simp⟩
  have behind := Reads.hidden fits .nil
  rw [List.append_nil] at behind
  exact .ordinary (by decide) (.ordinary (by decide) behind)

theorem quoted_sample : Quoted '\'' false "b;".toList :=
  .plain (by decide) nofun (.plain (by decide) nofun .nil)

theorem statements_reads_sample
    : Reads none "a;'b;'".toList (sampleItems "b;".toList)
      ∧ statements "a;'b;'".toList = ["a".toList, "''".toList] :=
  ⟨sampleItems_reads quoted_sample,
    (statements_reads (sampleItems_reads quoted_sample)).trans (by decide)⟩

/-- The token without what it hides. A name is kept: the guard against `dblink` looks into it. -/
def Token.outline : Token → Token
  | .line _ | .block _ _ => .line []
  | .literal _ _ _ | .dollar _ _ => .literal none [] true
  | .name unicode body closed => .name unicode body closed

def Item.outline : Item → Item
  | .code char => .code char
  | .hidden token => .hidden token.outline

theorem Item.shown_outline (keepQuoted : Bool) (item : Item)
    : item.outline.shown keepQuoted = item.shown keepQuoted := by
  cases item with
  | code char => rfl
  | hidden token => cases token <;> rfl

/-- What is in comments and literals does not count: two files that differ in nothing else have the
same violations.
-/
theorem lintFile_outline {sql other : Str} {items others : List Item} (reads : Reads none sql items)
    (readsOther : Reads none other others) (same : items.map Item.outline = others.map Item.outline)
    (isWord : Char → Bool) (fileName : Str) (allowRoutine : Bool)
    (prevObjects : Option (Finset Str)) (deployLinked : Bool)
    : lintFile isWord fileName sql allowRoutine prevObjects deployLinked
      = lintFile isWord fileName other allowRoutine prevObjects deployLinked := by
  have shows (keepQuoted : Bool) (items : List Item)
      : items.flatMap (Item.shown keepQuoted)
        = (items.map Item.outline).flatMap (Item.shown keepQuoted) := by
    rw [List.flatMap_map]
    exact List.flatMap_congr fun item _ => (item.shown_outline keepQuoted).symm
  have normalized (keepQuoted : Bool) : normalize keepQuoted sql = normalize keepQuoted other := by
    rw [normalize_reads keepQuoted reads, normalize_reads keepQuoted readsOther,
      shows keepQuoted items, same, ← shows keepQuoted others]
  simp only [lintFile, statements, links, normalized]

theorem lintFile_outline_sample
    : "a;'b;'".toList ≠ "a;''".toList
      ∧ lintFile Char.isAlphanum "0001".toList "a;'b;'".toList false none false
        = lintFile Char.isAlphanum "0001".toList "a;''".toList false none false :=
  ⟨by decide,
    lintFile_outline (sampleItems_reads quoted_sample) (sampleItems_reads .nil) rfl _ _ _ _ _⟩

end Statements

-- The files of a deploy

section Deploy

variable {isWord : Char → Bool} {allowRoutine : Bool} {prevObjects prevMore : Option (Finset Str)}
  {files others : List SqlFile}

/-- A file passes a deploy that has these links. -/
def Passes (isWord : Char → Bool) (allowRoutine : Bool) (prevObjects : Option (Finset Str))
    (linked : Bool) (file : SqlFile)
    : Prop :=
  ∃ raw, file.raw = some raw ∧ lintFile isWord file.name raw allowRoutine prevObjects linked = []

theorem lintFiles_additive {linked : Bool} {found : List Str}
    : lintFiles isWord allowRoutine prevObjects linked found files = .additive
      ↔ found = [] ∧ ∀ file ∈ files, Passes isWord allowRoutine prevObjects linked file := by
  induction files generalizing found with
  | nil => cases found <;> simp [lintFiles]
  | cons file files ih =>
      cases raw : file.raw with
      | none =>
          have unread : ¬Passes isWord allowRoutine prevObjects linked file := by
            intro ⟨text, read, _⟩
            cases raw.symm.trans read
          simp [lintFiles, raw, unread]
      | some text =>
          simp only [lintFiles, raw, ih, List.append_eq_nil_iff, List.forall_mem_cons, Passes,
            Option.some.injEq, exists_eq_left']
          exact and_assoc

/-- A file that passes keeps passing with fewer links and fewer relations before the deploy. -/
theorem Passes.mono {linked linkedMore : Bool} {file : SqlFile}
    (passes : Passes isWord allowRoutine prevMore linkedMore file)
    (prior : PriorWithin prevObjects prevMore) (fewer : linked → linkedMore)
    : Passes isWord allowRoutine prevObjects linked file := by
  obtain ⟨raw, read, clean⟩ := passes
  refine ⟨raw, read, ?_⟩
  unfold lintFile at clean ⊢
  split_ifs at clean ⊢
  refine lintFrom_mono prior (fun links => ?_) clean
  rw [Bool.or_eq_true] at links ⊢
  exact links.imp_left fewer

/-- A deploy is additive when each of its files passes with the links of all of them. The order of
the files does not count; and a deploy that is not additive does not become so with more files, or
where more relations were there before it.
-/
theorem lintDeploy_additive (isWord : Char → Bool) (allowRoutine : Bool)
    : (∀ prevObjects files,
        lintDeploy isWord allowRoutine prevObjects files = .additive
        ↔ ∀ file ∈ files,
            Passes isWord allowRoutine prevObjects (deployLinked isWord files) file)
      ∧ ∀ prevObjects prevMore (files others : List SqlFile),
          PriorWithin prevObjects prevMore
          → files ⊆ others
          → lintDeploy isWord allowRoutine prevMore others = .additive
          → lintDeploy isWord allowRoutine prevObjects files = .additive := by
  have each prevObjects files
      : lintDeploy isWord allowRoutine prevObjects files = .additive
        ↔ ∀ file ∈ files,
            Passes isWord allowRoutine prevObjects (deployLinked isWord files) file := by
    rw [lintDeploy, lintFiles_additive, eq_self_iff_true, true_and]
  refine ⟨each, fun prevObjects prevMore files others prior within accepted => ?_⟩
  have fewer : deployLinked isWord files → deployLinked isWord others := by
    intro linked
    obtain ⟨file, among, links⟩ := List.any_eq_true.mp linked
    exact List.any_eq_true.mpr ⟨file, within among, links⟩
  exact (each prevObjects files).mpr fun file among =>
    ((each prevMore others).mp accepted file (within among)).mono prior fewer

theorem lintDeploy_additive_sample
    : lintDeploy Char.isAlphanum false (some {"t".toList}) [⟨"0001".toList, some []⟩] = .additive
      ∧ lintDeploy Char.isAlphanum false (some ∅) [] = .additive := by
  have accepted
      : lintDeploy Char.isAlphanum false (some {"t".toList}) [⟨"0001".toList, some []⟩]
        = .additive := by
    decide
  exact ⟨accepted, (lintDeploy_additive Char.isAlphanum false).2 _ _ [] _
    (.known (Finset.empty_subset _)) (List.nil_subset _) accepted⟩

end Deploy

end Migration
