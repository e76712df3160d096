import Myndaix.Patterns.Regex

/-! What an expression without assertions reads, whatever stands around it. The engine ends exactly
behind the texts of the expression's language.
-/

namespace Patterns

/-- The same text is left at both places, and the same symbol stands right before it. -/
structure Place.Alike {Symbol : Type} (place other : Place Symbol) : Prop where
  before : place.before.head? = other.before.head?
  after : place.after = other.after

/-- Alikeness goes both ways. -/
theorem Place.Alike.symm {Symbol : Type} {place other : Place Symbol} (alike : place.Alike other)
    : other.Alike place :=
  ⟨alike.before.symm, alike.after.symm⟩

namespace Regex

variable {Symbol : Type}

/-- The texts of an expression; repetition leaves no round empty. -/
inductive Reads : Regex Symbol → List Symbol → Prop
  | here {holds} (always : ∀ place, holds place = true) : Reads (.here holds) []
  | one {accepts symbol} (accepted : accepts symbol = true) : Reads (.one accepts) [symbol]
  | seq {first second text rest} (begins : Reads first text) (goes : Reads second rest)
    : Reads (.seq first second) (text ++ rest)
  | left {first second text} (reads : Reads first text) : Reads (.alt first second) text
  | right {first second text} (reads : Reads second text) : Reads (.alt first second) text
  | stop {body} : Reads (.many body) []
  | more {body text rest} (round : Reads body text) (moves : text ≠ [])
    (rounds : Reads (.many body) rest)
    : Reads (.many body) (text ++ rest)

/-- The expression asserts nothing about what stands around it. -/
def Plain : Regex Symbol → Prop
  | .here holds => ∀ place, holds place = true
  | .one _ => True
  | .seq first second | .alt first second => first.Plain ∧ second.Plain
  | .many body => body.Plain

theorem plain_sequence {regexes : List (Regex Symbol)} (plain : ∀ regex ∈ regexes, regex.Plain)
    : (sequence regexes).Plain := by
  induction regexes with
  | nil => exact fun _ => rfl
  | cons regex regexes ih =>
      have rest := ih fun other mem => plain other (List.mem_cons_of_mem _ mem)
      cases regexes with
      | nil => exact plain regex List.mem_cons_self
      | cons next others => exact ⟨plain regex List.mem_cons_self, rest⟩

/-- The place behind a text that was read. -/
def Place.behind (place : Place Symbol) (text after : List Symbol) : Place Symbol :=
  { before := text.reverse ++ place.before, after := after }

section Ends

variable {regex first second body : Regex Symbol} {place next : Place Symbol}

theorem behind_nil : Place.behind place [] place.after = place := by
  cases place
  rfl

theorem behind_behind (text rest middle after : List Symbol)
    : Place.behind (Place.behind place text middle) rest after
      = Place.behind place (text ++ rest) after := by
  simp [Place.behind]

/-- What a step reads in a number of rounds, by induction on them. -/
theorem rounds_reads {step : Place Symbol → List (Place Symbol)}
    (reads
      : ∀ {place next},
          next ∈ step place
          → ∃ text,
              Reads body text
              ∧ place.after = text ++ next.after
              ∧ next = Place.behind place text next.after)
    (fuel : Nat) (mem : next ∈ rounds step fuel place)
    : ∃ text,
        Reads (.many body) text
        ∧ place.after = text ++ next.after
        ∧ next = Place.behind place text next.after := by
  induction fuel generalizing place with
  | zero =>
      obtain rfl := List.mem_singleton.mp mem
      exact ⟨[], .stop, rfl, behind_nil.symm⟩
  | succ fuel ih =>
      rcases List.mem_append.mp mem with more | last
      · obtain ⟨middle, kept, rest⟩ := List.mem_flatMap.mp more
        obtain ⟨begun, shorter⟩ := List.mem_filter.mp kept
        obtain ⟨text, round, here, there⟩ := reads begun
        obtain ⟨tail, goes, left, ended⟩ := ih rest
        refine ⟨text ++ tail, .more round ?_ goes, ?_, ?_⟩
        · rintro rfl
          rw [here] at shorter
          simp at shorter
        · rw [here, left, List.append_assoc]
        · rw [← behind_behind text tail middle.after, ← there]
          exact ended
      · obtain rfl := List.mem_singleton.mp last
        exact ⟨[], .stop, rfl, behind_nil.symm⟩

/-- More rounds reach no less, by induction on the rounds. -/
theorem rounds_mono {step : Place Symbol → List (Place Symbol)} {fuel most : Nat}
    (within : fuel ≤ most) (mem : next ∈ rounds step fuel place)
    : next ∈ rounds step most place := by
  induction fuel generalizing most place with
  | zero =>
      obtain rfl := List.mem_singleton.mp mem
      cases most with
      | zero => exact List.mem_singleton_self _
      | succ most => exact List.mem_append_right _ (List.mem_singleton_self _)
  | succ fuel ih =>
      obtain ⟨most, rfl⟩ : ∃ least, most = least + 1 := ⟨most - 1, by omega⟩
      rcases List.mem_append.mp mem with more | last
      · obtain ⟨middle, kept, rest⟩ := List.mem_flatMap.mp more
        exact List.mem_append_left _ (List.mem_flatMap.mpr ⟨middle, kept, ih (by omega) rest⟩)
      · exact List.mem_append_right _ last

/-- The engine ends behind a text of the expression, by induction on the expression. -/
theorem reads_of_ends (plain : regex.Plain) (mem : next ∈ regex.ends place)
    : ∃ text,
        Reads regex text
        ∧ place.after = text ++ next.after
        ∧ next = Place.behind place text next.after := by
  induction regex generalizing place next with
  | here holds =>
      rw [ends_here, plain place] at mem
      obtain rfl := List.mem_singleton.mp mem
      exact ⟨[], .here plain, rfl, behind_nil.symm⟩
  | one accepts =>
      obtain ⟨before, after⟩ := place
      cases after with
      | nil => cases mem
      | cons symbol after =>
          rw [ends_one_cons] at mem
          split at mem
          · rename_i accepted
            obtain rfl := List.mem_singleton.mp mem
            exact ⟨[symbol], .one accepted, rfl, rfl⟩
          · cases mem
  | seq first second firstIh secondIh =>
      obtain ⟨middle, begun, ended⟩ := List.mem_flatMap.mp mem
      obtain ⟨text, begins, here, there⟩ := firstIh plain.1 begun
      obtain ⟨rest, goes, left, same⟩ := secondIh plain.2 ended
      refine ⟨text ++ rest, .seq begins goes, ?_, ?_⟩
      · rw [here, left, List.append_assoc]
      · rw [← behind_behind text rest middle.after, ← there]
        exact same
  | alt first second firstIh secondIh =>
      rcases List.mem_append.mp mem with begun | begun
      · obtain ⟨text, reads, rest⟩ := firstIh plain.1 begun
        exact ⟨text, .left reads, rest⟩
      · obtain ⟨text, reads, rest⟩ := secondIh plain.2 begun
        exact ⟨text, .right reads, rest⟩
  | many body ih => exact rounds_reads (fun begun => ih plain begun) _ mem

/-- The texts of an expression are read wherever they stand, by induction on how one is made. -/
theorem ends_of_reads {text : List Symbol} (reads : Reads regex text) {after : List Symbol}
    (here : place.after = text ++ after)
    : Place.behind place text after ∈ regex.ends place := by
  induction reads generalizing place after with
  | here always =>
      have same : place.after = after := here
      rw [ends_here, always place, if_pos rfl, ← same, behind_nil]
      exact List.mem_singleton_self place
  | @one accepts symbol accepted =>
      obtain ⟨before, left⟩ := place
      obtain rfl : left = symbol :: after := here
      rw [ends_one_cons, if_pos accepted]
      exact List.mem_singleton_self _
  | @seq first second text rest _ _ beginsIh goesIh =>
      rw [List.append_assoc] at here
      rw [ends_seq, ← behind_behind text rest (rest ++ after)]
      exact List.mem_flatMap.mpr ⟨_, beginsIh here, goesIh rfl⟩
  | left _ ih => exact List.mem_append_left _ (ih here)
  | right _ ih => exact List.mem_append_right _ (ih here)
  | @stop body =>
      have same : place.after = after := here
      rw [ends_many, ← same, behind_nil]
      cases place.after.length with
      | zero => exact List.mem_singleton_self place
      | succ fuel => exact List.mem_append_right _ (List.mem_singleton_self place)
  | @more body text rest _ moves _ roundIh roundsIh =>
      rw [List.append_assoc] at here
      have begun := roundIh here
      have ended
          : Place.behind (Place.behind place text (rest ++ after)) rest after
            ∈ (many body).ends (Place.behind place text (rest ++ after)) :=
        roundsIh rfl
      have shorter : (rest ++ after).length < place.after.length := by
        have taken := List.length_pos_iff.mpr moves
        rw [here]
        simp only [List.length_append]
        omega
      rw [behind_behind, ends_many] at ended
      obtain ⟨fuel, left⟩ : ∃ fuel, place.after.length = fuel + 1 :=
        ⟨place.after.length - 1, by omega⟩
      rw [ends_many, left]
      refine List.mem_append_left _ (List.mem_flatMap.mpr ⟨_, List.mem_filter.mpr ⟨begun, ?_⟩, ?_⟩)
      · exact decide_eq_true shorter
      · exact rounds_mono (show (rest ++ after).length ≤ fuel by omega) ended

/-- A match at a place is a text of the expression there. -/
theorem ends_iff (plain : regex.Plain)
    : next ∈ regex.ends place
      ↔ ∃ text,
          Reads regex text
          ∧ place.after = text ++ next.after
          ∧ next = Place.behind place text next.after := by
  constructor
  · exact reads_of_ends plain
  · intro found
    obtain ⟨text, reads, here, there⟩ := found
    rw [there]
    exact ends_of_reads reads here

/-- The places of a text are where it can be cut, by induction on the text. -/
theorem mem_onward {before text : List Symbol}
    : place ∈ Place.onward before text
      ↔ ∃ front after, text = front ++ after
        ∧ place = { before := front.reverse ++ before, after := after } := by
  induction text generalizing before with
  | nil =>
      simp only [Place.onward, List.mem_singleton, List.nil_eq, List.append_eq_nil_iff]
      constructor
      · exact fun same => ⟨[], [], ⟨rfl, rfl⟩, same⟩
      · intro found
        obtain ⟨_, _, ⟨rfl, rfl⟩, same⟩ := found
        exact same
  | cons symbol text ih =>
      rw [Place.onward, List.mem_cons, ih]
      constructor
      · rintro (same | ⟨front, after, rfl, same⟩)
        · exact ⟨[], symbol :: text, rfl, same⟩
        · exact ⟨symbol :: front, after, rfl, by simpa using same⟩
      · rintro ⟨front, after, cut, same⟩
        cases front with
        | nil =>
            obtain rfl : symbol :: text = after := cut
            exact .inl same
        | cons first front =>
            obtain ⟨rfl, rfl⟩ := List.cons.inj cut
            exact .inr ⟨front, after, rfl, by simpa using same⟩

/-- A search finds what can be cut out of the text. -/
theorem search_iff (plain : regex.Plain) {text : List Symbol}
    : regex.search text = true
      ↔ ∃ front found back, text = front ++ found ++ back ∧ Reads regex found := by
  simp only [search, List.any_eq_true, Bool.not_eq_true', List.isEmpty_eq_false_iff_exists_mem]
  constructor
  · intro matched
    obtain ⟨place, among, next, mem⟩ := matched
    obtain ⟨front, after, rfl, rfl⟩ := mem_onward.mp among
    obtain ⟨found, reads, here, _⟩ := reads_of_ends plain mem
    refine ⟨front, found, next.after, ?_, reads⟩
    rw [List.append_assoc]
    exact congrArg (front ++ ·) here
  · intro cut
    obtain ⟨front, found, back, rfl, reads⟩ := cut
    have among
        : { before := front.reverse ++ [], after := found ++ back }
          ∈ Place.onward [] (front ++ found ++ back) :=
      mem_onward.mpr ⟨front, found ++ back, List.append_assoc _ _ _, rfl⟩
    exact ⟨_, among, _, ends_of_reads reads rfl⟩

/-- The engine ends behind this text here. -/
theorem ends_behind_iff (plain : regex.Plain) {before found after : List Symbol}
    : Place.behind { before := before, after := found ++ after } found after
        ∈ regex.ends { before := before, after := found ++ after }
      ↔ Reads regex found := by
  constructor
  · intro mem
    obtain ⟨text, reads, here, _⟩ := reads_of_ends plain mem
    have same : found ++ after = text ++ after := here
    rwa [List.append_cancel_right same]
  · exact fun reads => ends_of_reads reads rfl
end Ends

section Languages

variable {first second body : Regex Symbol} {accepts : Symbol → Bool} {text : List Symbol}

theorem reads_one
    : Reads (.one accepts) text ↔ ∃ symbol, accepts symbol = true ∧ text = [symbol] := by
  constructor
  · intro reads
    cases reads with
    | one accepted => exact ⟨_, accepted, rfl⟩
  · intro found
    obtain ⟨symbol, accepted, rfl⟩ := found
    exact .one accepted

theorem reads_seq
    : Reads (.seq first second) text
      ↔ ∃ front back, Reads first front ∧ Reads second back ∧ text = front ++ back := by
  constructor
  · intro reads
    cases reads with
    | seq begins goes => exact ⟨_, _, begins, goes, rfl⟩
  · intro found
    obtain ⟨front, back, begins, goes, rfl⟩ := found
    exact .seq begins goes

theorem reads_alt : Reads (.alt first second) text ↔ Reads first text ∨ Reads second text := by
  constructor
  · intro reads
    cases reads with
    | left reads => exact .inl reads
    | right reads => exact .inr reads
  · exact fun either => either.elim .left .right

theorem reads_skip : Reads skip text ↔ text = [] := by
  constructor
  · intro reads
    cases reads
    rfl
  · intro empty
    subst empty
    exact .here fun _ => rfl

/-- Repeating one symbol reads such symbols only, by induction on the text one way and on how it is
read the other.
-/
theorem reads_many_one
    : Reads (.many (.one accepts)) text ↔ ∀ symbol ∈ text, accepts symbol = true := by
  constructor
  · intro reads
    generalize same : many (.one accepts) = regex at reads
    induction reads with
    | stop => simp
    | more round moves rest _ restIh =>
        cases same
        obtain ⟨symbol, accepted, rfl⟩ := reads_one.mp round
        simpa [accepted] using restIh rfl
    | _ => cases same
  · intro all
    induction text with
    | nil => exact .stop
    | cons symbol text ih =>
        have accepted := all symbol List.mem_cons_self
        refine Reads.more (.one accepted) (by simp) (ih fun other mem => ?_)
        exact all other (List.mem_cons_of_mem _ mem)

/-- One expression reads of the symbols what the other one reads of what they show. -/
def Shows {Shown : Type} (glyph : Symbol → Shown) (regex : Regex Symbol)
    (shown : Regex Shown) : Prop :=
  ∀ text, regex.Reads text ↔ shown.Reads (text.map glyph)

section Shows

variable {Shown : Type} {glyph : Symbol → Shown} {firstShown secondShown : Regex Shown}

theorem Shows.one (accepts : Shown → Bool)
    : Shows glyph (.one fun symbol => accepts (glyph symbol)) (.one accepts) := by
  intro text
  rw [reads_one, reads_one]
  constructor
  · intro found
    obtain ⟨symbol, accepted, rfl⟩ := found
    exact ⟨glyph symbol, accepted, rfl⟩
  · intro found
    obtain ⟨_, accepted, same⟩ := found
    obtain ⟨symbol, rfl, rfl⟩ := List.map_eq_singleton_iff.mp same
    exact ⟨symbol, accepted, rfl⟩

theorem Shows.skip : Shows glyph skip skip := by
  intro text
  rw [reads_skip, reads_skip, List.map_eq_nil_iff]

theorem Shows.seq (begins : Shows glyph first firstShown) (goes : Shows glyph second secondShown)
    : Shows glyph (.seq first second) (.seq firstShown secondShown) := by
  intro text
  rw [reads_seq, reads_seq]
  constructor
  · intro found
    obtain ⟨front, back, reads, rest, rfl⟩ := found
    exact ⟨_, _, (begins front).mp reads, (goes back).mp rest, List.map_append⟩
  · intro found
    obtain ⟨_, _, reads, rest, same⟩ := found
    obtain ⟨front, back, rfl, rfl, rfl⟩ := List.map_eq_append_iff.mp same
    exact ⟨front, back, (begins front).mpr reads, (goes back).mpr rest, rfl⟩

theorem Shows.alt (left : Shows glyph first firstShown) (right : Shows glyph second secondShown)
    : Shows glyph (.alt first second) (.alt firstShown secondShown) := by
  intro text
  rw [reads_alt, reads_alt, left, right]

theorem Shows.manyOne (accepts : Shown → Bool)
    : Shows glyph (.many (.one fun symbol => accepts (glyph symbol))) (.many (.one accepts)) := by
  intro text
  rw [reads_many_one, reads_many_one, List.forall_mem_map]

end Shows

end Languages

-- Looking back

/-- No assertion looks farther back than at the symbol before it. -/
def Near : Regex Symbol → Prop
  | .here holds => ∀ place other : Place Symbol, place.Alike other → holds place = holds other
  | .one _ => True
  | .seq first second | .alt first second => first.Near ∧ second.Near
  | .many body => body.Near

section Near

variable {regex : Regex Symbol} {place other next : Place Symbol}

theorem near_choice {regexes : List (Regex Symbol)} (near : ∀ regex ∈ regexes, regex.Near)
    : (choice regexes).Near := by
  induction regexes with
  | nil => exact fun _ _ _ => rfl
  | cons regex regexes ih =>
      have rest := ih fun other mem => near other (List.mem_cons_of_mem _ mem)
      cases regexes with
      | nil => exact near regex List.mem_cons_self
      | cons next others => exact ⟨near regex List.mem_cons_self, rest⟩

end Near

end Regex

end Patterns
