import Mathlib.Data.List.TakeWhile
import Myndaix.Migration.Additive

/-! The more relations there were before the deploy, and the fewer are created by earlier
statements, the less passes the gate. Without the relations before the deploy, new is only what an
earlier statement of the file has created.
-/

namespace Migration

open Inbox (Str)
open Outcomes (isSpace strip)
open Patterns
open Regex (begins search)

-- One statement

section Statement

variable {isWord : Char → Bool} {stmt : Str} {allowRoutine linked linkedMore : Bool}
  {created createdFewer : Finset Str} {prevObjects prevMore : Option (Finset Str)}

/-- What is new to the one file and deploy is new to the other. -/
def NewerThan (created : Finset Str) (prevObjects : Option (Finset Str)) (createdFewer : Finset Str)
    (prevMore : Option (Finset Str)) : Prop :=
  ∀ name, newThisDeploy name createdFewer prevMore → newThisDeploy name created prevObjects

/-- The gate asks whether a relation is new, and whether nothing is linked, for nothing but to
accept; by the cases of the gate.
-/
theorem isAdditive_mono (newer : NewerThan created prevObjects createdFewer prevMore)
    (links : linked → linkedMore)
    (accepted : isAdditive isWord stmt allowRoutine createdFewer prevMore linkedMore)
    : isAdditive isWord stmt allowRoutine created prevObjects linked := by
  have unlinked (free : (!linkedMore) = true) : (!linked) = true := by
    cases linked with
    | false => rfl
    | true => rw [links rfl] at free; exact free
  rw [isAdditive] at accepted ⊢
  split
  · rfl
  rename_i filled
  rw [if_neg filled] at accepted
  split
  · rename_i dblink
    rw [if_pos dblink] at accepted
    exact accepted
  rename_i dblink
  rw [if_neg dblink] at accepted
  split
  · rfl
  rename_i routine
  rw [if_neg routine] at accepted
  split
  · rename_i create
    rw [if_pos create] at accepted
    split
    · rename_i replace
      rw [if_pos replace] at accepted
      cases view : replacedView (strip stmt) with
      | none => rw [view] at accepted; exact accepted
      | some view => rw [view] at accepted; exact newer _ accepted
    rename_i replace
    rw [if_neg replace] at accepted
    split
    · rename_i unique
      rw [if_pos unique] at accepted
      cases target : targetAfterOn isWord (strip stmt) with
      | none => rw [target] at accepted; exact accepted
      | some target =>
          rw [target] at accepted
          obtain ⟨free, isNew⟩ := Bool.and_eq_true_iff.mp accepted
          exact Bool.and_eq_true_iff.mpr ⟨unlinked free, newer _ isNew⟩
    · rename_i unique
      rw [if_neg unique] at accepted
      cases parent : partitionOf isWord (strip stmt) with
      | none => rw [parent] at accepted; exact accepted
      | some parent =>
          rw [parent] at accepted
          obtain ⟨isNew, shape⟩ := Bool.and_eq_true_iff.mp accepted
          exact Bool.and_eq_true_iff.mpr ⟨newer _ isNew, shape⟩
  rename_i create
  rw [if_neg create] at accepted
  split
  · rename_i alters
    rw [if_pos alters] at accepted
    cases named : alterTable (strip stmt) with
    | none => rw [named] at accepted; exact accepted
    | some table =>
        rw [named] at accepted
        dsimp only at accepted ⊢
        cases attaches : attachPartition table.stop.after with
        | some child =>
            rw [attaches] at accepted
            obtain ⟨parent, attached⟩ := Bool.and_eq_true_iff.mp accepted
            exact Bool.and_eq_true_iff.mpr ⟨newer _ parent, newer _ attached⟩
        | none =>
            rw [attaches] at accepted
            dsimp only at accepted ⊢
            split
            · rfl
            · rename_i old
              split at accepted
              · rename_i fresh
                obtain ⟨free, isNew⟩ := Bool.and_eq_true_iff.mp fresh
                exact absurd (Bool.and_eq_true_iff.mpr ⟨unlinked free, newer _ isNew⟩) old
              · exact accepted
  · rename_i alters
    rw [if_neg alters] at accepted
    exact accepted

/-- The prior relations of one deploy are among those of another, or neither knows any. -/
inductive PriorWithin : Option (Finset Str) → Option (Finset Str) → Prop where
  | known {prevObjects prevMore : Finset Str} (within : prevObjects ⊆ prevMore)
      : PriorWithin (some prevObjects) (some prevMore)
  | unknown : PriorWithin none none

theorem PriorWithin.refl (prevObjects : Option (Finset Str))
    : PriorWithin prevObjects prevObjects := by
  cases prevObjects with
  | none => exact .unknown
  | some known => exact .known (Finset.Subset.refl _)

theorem PriorWithin.newerThan (prior : PriorWithin prevObjects prevMore)
    (fewer : createdFewer ⊆ created)
    : NewerThan created prevObjects createdFewer prevMore := by
  intro name isNew
  unfold newThisDeploy at isNew ⊢
  split
  · rename_i unresolvable
    rw [if_pos unresolvable] at isNew
    exact isNew
  · rename_i resolvable
    rw [if_neg resolvable] at isNew
    cases prior with
    | known within =>
        exact decide_eq_true fun mem => of_decide_eq_true isNew (within mem)
    | unknown => exact decide_eq_true (fewer (of_decide_eq_true isNew))

end Statement

-- The statements of a file

section File

variable {isWord : Char → Bool} {fileName : Str} {allowRoutine linked linkedMore : Bool}
  {created : Finset Str} {prevObjects prevMore : Option (Finset Str)} {stmts : List Str}

/-- What the statements of a file have created. -/
def createdBy (isWord : Char → Bool) (created : Finset Str) (stmts : List Str) : Finset Str :=
  stmts.foldl
    (fun created stmt => if stmt = [] then created else register isWord created stmt)
    created

theorem lintFrom_append (front rest : List Str)
    : lintFrom isWord fileName allowRoutine prevObjects linked created (front ++ rest)
      = lintFrom isWord fileName allowRoutine prevObjects linked created front
        ++ lintFrom isWord fileName allowRoutine prevObjects linked
            (createdBy isWord created front) rest := by
  induction front generalizing created with
  | nil => rfl
  | cons stmt front ih =>
      rw [List.cons_append, lintFrom, lintFrom]
      split
      · rename_i empty
        rw [ih, createdBy, createdBy, List.foldl_cons, if_pos empty]
      · rename_i filled
        rw [ih, createdBy, createdBy, List.foldl_cons, if_neg filled]
        exact (List.append_assoc _ _ _).symm

/-- A run over the statements: where the stricter run accepts them all, the other does too. -/
theorem lintFrom_mono (prior : PriorWithin prevObjects prevMore) (links : linked → linkedMore)
    (accepted : lintFrom isWord fileName allowRoutine prevMore linkedMore created stmts = [])
    : lintFrom isWord fileName allowRoutine prevObjects linked created stmts = [] := by
  induction stmts generalizing created with
  | nil => rfl
  | cons stmt stmts ih =>
      rw [lintFrom] at accepted ⊢
      split
      · rename_i empty
        rw [if_pos empty] at accepted
        exact ih accepted
      · rename_i filled
        rw [if_neg filled] at accepted
        obtain ⟨here, later⟩ := List.append_eq_nil_iff.mp accepted
        have additive : isAdditive isWord stmt allowRoutine created prevMore linkedMore := by
          by_contra rejected
          rw [if_neg rejected] at here
          cases here
        rw [if_pos (isAdditive_mono (prior.newerThan (Finset.Subset.refl _)) links additive),
          List.nil_append]
        exact ih later

/-- Statements only add to what has been created. -/
theorem subset_createdBy : created ⊆ createdBy isWord created stmts := by
  induction stmts generalizing created with
  | nil => exact Finset.Subset.refl _
  | cons stmt stmts ih =>
      rw [createdBy, List.foldl_cons]
      refine Finset.Subset.trans ?_ ih
      split
      · exact Finset.Subset.refl _
      · unfold register
        split
        · split
          · exact Finset.subset_insert _ _
          · exact Finset.Subset.refl _
        · exact Finset.Subset.refl _

theorem createdBy_append (front rest : List Str)
    : createdBy isWord created (front ++ rest)
      = createdBy isWord (createdBy isWord created front) rest :=
  List.foldl_append

end File

-- What a file has created

theorem plain_word (letters : String) : (word letters).Plain := by
  refine Regex.plain_sequence fun regex mem => ?_
  obtain ⟨letter, _, rfl⟩ := List.mem_map.mp mem
  exact trivial

theorem plain_someSpaces : Capture.someSpaces.Plain :=
  ⟨trivial, trivial⟩

theorem plain_createTable : createTable.Plain := by
  have words (letters : String) : (spaced (word letters)).Plain :=
    ⟨plain_word letters, plain_someSpaces⟩
  have skips (place : Place Char) : (fun _ : Place Char => true) place = true := rfl
  exact
    ⟨words _,
      ⟨words _, words _, ⟨⟨plain_word _, plain_word _, skips⟩, plain_someSpaces⟩, words _⟩, words _⟩

section Created

variable {isWord : Char → Bool} {stmt name : Str}

/-- The statement is an unconditional `CREATE TABLE` of this name, which goes on to the first space,
parenthesis or star.
-/
def CreatesTable (isWord : Char → Bool) (stmt name : Str) : Prop :=
  ∃ head tail,
    stmt = head ++ name ++ tail
    ∧ createTable.Reads head
    ∧ (ifNotExists isWord).ends { before := head.reverse, after := name ++ tail } = []
    ∧ name ≠ []
    ∧ (∀ char ∈ name, isNameChar char)
    ∧ ∀ char ∈ tail.head?, isNameChar char = false

theorem createsTable_of_name (named : createTableName isWord stmt = some name)
    : CreatesTable isWord stmt name := by
  obtain ⟨capture, found, rfl⟩ := Option.map_eq_some_iff.mp named
  obtain ⟨opens, among, same, filled⟩ := Regex.run_of_matchGroup found
  rw [Regex.ends_seq] at among
  obtain ⟨behind, begun, looked⟩ := List.mem_flatMap.mp among
  obtain ⟨head, reads, here, there⟩ := (Regex.ends_iff plain_createTable).mp begun
  rw [Capture.notAhead, Regex.ends_here] at looked
  split at looked
  · rename_i free
    obtain rfl := List.mem_singleton.mp looked
    have cut : opens.after = capture.group ++ opens.after.dropWhile isNameChar := by
      rw [same]
      exact List.takeWhile_append_dropWhile.symm
    have place
        : opens
          = { before := head.reverse,
              after := capture.group ++ opens.after.dropWhile isNameChar } := by
      rw [← cut]
      simpa [Regex.Place.behind, Place.start] using there
    refine ⟨head, opens.after.dropWhile isNameChar, ?_, reads, ?_, filled, ?_, ?_⟩
    · rw [List.append_assoc, ← cut]
      exact here
    · rw [← place]
      exact List.isEmpty_iff.mp free
    · intro char mem
      rw [same] at mem
      exact List.mem_takeWhile_imp mem
    · intro char first
      have stopped := List.head?_dropWhile_not isNameChar opens.after
      rw [Option.mem_def.mp first] at stopped
      simpa using stopped
  · cases looked

/-- Every name that counts as created comes from a statement, by induction on the statements. -/
theorem exists_of_createdBy {created : Finset Str} {stmts : List Str}
    (mem : name ∈ createdBy isWord created stmts)
    : name ∈ created ∨ ∃ earlier ∈ stmts, CreatesTable isWord earlier name := by
  induction stmts generalizing created with
  | nil => exact .inl mem
  | cons stmt stmts ih =>
      rw [createdBy, List.foldl_cons] at mem
      obtain before | ⟨earlier, among, creates⟩ := ih mem
      · split at before
        · exact .inl before
        · unfold register at before
          split at before
          · rename_i found named
            split at before
            · obtain rfl | before := Finset.mem_insert.mp before
              · exact .inr ⟨stmt, List.mem_cons_self, createsTable_of_name named⟩
              · exact .inl before
            · exact .inl before
          · exact .inl before
      · exact .inr ⟨earlier, List.mem_cons_of_mem _ among, creates⟩

end Created

-- The gate over a whole file

/-- More relations before the deploy, more links and more statements never let a rejected file pass.
Each statement is judged by what the statements in front of it have created: where the relations
before the deploy are unknown, nothing else is new, and an operation that passes keeps passing
further back.
-/
theorem born_this_deploy_monotone (isWord : Char → Bool) (fileName : Str) (allowRoutine : Bool)
    : (∀ {prevObjects prevMore : Option (Finset Str)} {linked linkedMore : Bool} (ss ts : List Str),
        PriorWithin prevObjects prevMore
        → (linked → linkedMore)
        → lintStatements isWord fileName allowRoutine prevObjects linked ss ≠ []
        → lintStatements isWord fileName allowRoutine prevMore linkedMore (ss ++ ts) ≠ [])
      ∧ (∀ (prevObjects : Option (Finset Str)) (linked : Bool) (front rest : List Str),
          lintStatements isWord fileName allowRoutine prevObjects linked (front ++ rest)
            = lintStatements isWord fileName allowRoutine prevObjects linked front
              ++ lintFrom isWord fileName allowRoutine prevObjects linked (createdBy isWord ∅ front)
                rest)
      ∧ (∀ (front : List Str) (name : Str),
          newThisDeploy name (createdBy isWord ∅ front) none
          → ∃ earlier ∈ front, CreatesTable isWord earlier name)
      ∧ ∀ (prevObjects : Option (Finset Str)) (linked : Bool) (front mid : List Str) (stmt : Str),
          isAdditive isWord stmt allowRoutine (createdBy isWord ∅ front) prevObjects linked
          → isAdditive isWord stmt allowRoutine (createdBy isWord ∅ (front ++ mid)) prevObjects
            linked := by
  refine ⟨?_, ?_, ?_, ?_⟩
  · intro prevObjects prevMore linked linkedMore ss ts prior links rejected passed
    rw [lintStatements, lintFrom_append] at passed
    exact rejected (lintFrom_mono prior links (List.append_eq_nil_iff.mp passed).1)
  · exact fun prevObjects linked front rest => lintFrom_append front rest
  · intro front name isNew
    unfold newThisDeploy at isNew
    split at isNew
    · cases isNew
    · obtain nothing | created := exists_of_createdBy (of_decide_eq_true isNew)
      · exact absurd nothing (Finset.notMem_empty name)
      · exact created
  · intro prevObjects linked front mid stmt accepted
    rw [createdBy_append]
    have prior : PriorWithin prevObjects prevObjects := PriorWithin.refl prevObjects
    exact isAdditive_mono (prior.newerThan subset_createdBy) id accepted

/-- A file that drops a table, and one that alters the table it has created before. -/
theorem sample_born_this_deploy_monotone
    : lintStatements Capture.isAsciiWord "1.sql".toList false (some {"orders".toList}) true
          (["DROP TABLE orders".toList] ++ ["CREATE TABLE fresh (id int)".toList])
        ≠ []
      ∧ (∃ earlier ∈ ["CREATE TABLE fresh (id int)".toList],
          CreatesTable Capture.isAsciiWord earlier "fresh".toList)
      ∧ isAdditive Capture.isAsciiWord "ALTER TABLE fresh DROP COLUMN id".toList false
        (createdBy Capture.isAsciiWord ∅
          (["CREATE TABLE fresh (id int)".toList] ++ ["COMMENT ON TABLE fresh IS ''".toList]))
        none false := by
  obtain ⟨longer, _, earlier, later⟩ :=
    born_this_deploy_monotone Capture.isAsciiWord "1.sql".toList false
  refine ⟨@longer (some ∅) _ false _ _ _ ?_ ?_ ?_, earlier _ _ ?_, later _ _ _ _ _ ?_⟩
  · exact .known (Finset.empty_subset _)
  · exact fun _ => rfl
  · decide +kernel
  · decide +kernel
  · decide +kernel

end Migration
