import Mathlib
import DeclGraph.Proofs.RefreshBalance

/-! Batches of parents by position. A draft that lacks nothing says an identity: a child, a symbol without the
blanks around it and a heritage. A batch adds a row where an identity is said for the first time, unless it is
stored, and every other draft is counted as dropped or as a duplicate. No row that is stored is touched. -/
namespace DeclGraph

namespace Text

variable {text core : String}

structure Trims (text core : String) : Prop where
  around : ∃ before after, text.toList = before ++ (core.toList ++ after) ∧
    (∀ c ∈ before, isBlank c = true) ∧ ∀ c ∈ after, isBlank c = true
  front : ∀ c ∈ core.toList.head?, isBlank c = false
  back : ∀ c ∈ core.toList.getLast?, isBlank c = false

theorem toList_trim (text : String) :
    (trim text).toList = (text.toList.dropWhile isBlank).rdropWhile isBlank := by
  rw [trim, String.toList_ofList]
  rfl

theorem trims_trim (text : String) : Trims text (trim text) := by
  constructor
  · refine ⟨text.toList.takeWhile isBlank, (text.toList.dropWhile isBlank).rtakeWhile isBlank,
      ?_, fun c => List.mem_takeWhile_imp, fun c => List.mem_rtakeWhile_imp⟩
    rw [toList_trim, List.rdropWhile_append_rtakeWhile, List.takeWhile_append_dropWhile]
  · intro c first
    -- The core is the front of what is left once the blanks before it are dropped.
    obtain ⟨rest, split⟩ := List.rdropWhile_prefix isBlank (text.toList.dropWhile isBlank)
    have solid := List.head?_dropWhile_not isBlank text.toList
    rw [← split, ← toList_trim, List.head?_append, first] at solid
    exact solid
  · intro c last
    rw [toList_trim] at last
    obtain ⟨some, rfl⟩ := List.mem_getLast?_eq_getLast last
    simpa using List.rdropWhile_last_not isBlank _ some

theorem Trims.trim_eq (trims : Trims text core) : trim text = core := by
  obtain ⟨⟨before, after, split, blank, blank'⟩, front, back⟩ := trims
  rw [← String.toList_inj, toList_trim, split, List.dropWhile_append_of_pos blank]
  cases solid : core.toList with
  | nil =>
      rw [List.nil_append, List.dropWhile_eq_nil_iff.2 blank']
      rfl
  | cons c rest =>
      rw [solid] at front back
      rw [List.cons_append, List.dropWhile_cons_of_neg (by simp [front c rfl]), ← List.cons_append,
        List.rdropWhile, List.reverse_append,
        List.dropWhile_append_of_pos fun c member => blank' c (List.mem_reverse.1 member)]
      refine List.rdropWhile_eq_self_iff.2 fun some => ?_
      simp [back _ (List.getLast?_eq_some_getLast some)]

theorem trim_eq_iff : trim text = core ↔ Trims text core :=
  ⟨fun same => same ▸ trims_trim text, Trims.trim_eq⟩

theorem trim_eq_empty_iff : trim text = "" ↔ ∀ c ∈ text.toList, isBlank c = true := by
  constructor
  · intro empty c member
    obtain ⟨⟨before, after, split, blank, blank'⟩, -, -⟩ := trim_eq_iff.1 empty
    rw [split] at member
    rcases List.mem_append.1 member with front | back
    · exact blank c front
    · exact blank' c back
  · intro blank
    exact Trims.trim_eq ⟨⟨text.toList, [], by simp, blank, by simp⟩, by simp, by simp⟩

end Text

namespace ParentDraft

variable {draft : ParentDraft} {key : Int × String × String}

structure Says (draft : ParentDraft) (key : Int × String × String) : Prop where
  child : draft.childId = some key.1
  symbol : ∃ text, draft.symbol = some text ∧ Text.Trims text key.2.1
  solid : key.2.1 ≠ ""
  heritage : ∃ known, draft.heritage = some known ∧ known.name = key.2.2

def Lacks (draft : ParentDraft) : Prop :=
  draft.childId = none ∨ draft.heritage = none ∨
    ∀ text ∈ draft.symbol, ∀ c ∈ text.toList, Text.isBlank c = true

theorem complete?_eq_some_iff : draft.complete? = some key ↔ draft.Says key := by
  obtain ⟨childId, symbol, heritage⟩ := key
  simp only [complete?, Option.bind_eq_bind, Option.bind_eq_some_iff]
  constructor
  · rintro ⟨child, here, text, named, kind, known, complete⟩
    split at complete
    next => cases complete
    next solid =>
      cases complete
      exact ⟨here, ⟨text, named, Text.trims_trim text⟩, by simpa using solid, kind, known, rfl⟩
  · rintro ⟨here, ⟨text, named, trims⟩, solid, kind, known, rfl⟩
    refine ⟨childId, here, text, named, kind, known, ?_⟩
    rw [trims.trim_eq, if_neg (by simpa using solid)]

theorem isComplete_eq_false_iff : draft.isComplete = false ↔ draft.Lacks := by
  obtain ⟨childId, symbol, heritage⟩ := draft
  cases childId with
  | none => simp [isComplete, complete?, Lacks]
  | some child =>
      cases symbol with
      | none => simp [isComplete, complete?, Lacks]
      | some text =>
          cases heritage with
          | none => simp [isComplete, complete?, Lacks]
          | some kind =>
              by_cases empty : Text.trim text = ""
              · simpa [isComplete, complete?, Lacks, empty] using Text.trim_eq_empty_iff.1 empty
              · simpa [isComplete, complete?, Lacks, empty] using Text.trim_eq_empty_iff.not.1 empty

instance : Decidable draft.Lacks :=
  decidable_of_iff _ isComplete_eq_false_iff

theorem isComplete_eq : draft.isComplete = decide (¬ draft.Lacks) := by
  rw [Bool.eq_iff_iff, decide_eq_true_eq, ← isComplete_eq_false_iff, Bool.not_eq_false]

end ParentDraft

namespace Store

variable {store : Store} {drafts : List ParentDraft} {draft : ParentDraft} {position : Nat}
  {edge : ParentRow} {key : Int × String × String}

/-- The row that the draft at a position adds. The draft is the first to say the identity and no row has it.
Drafts that lack nothing take a number each, whether they add a row or not. -/
structure AddedAt (store : Store) (drafts : List ParentDraft) (position : Nat) (edge : ParentRow) :
    Prop where
  said : ∃ draft, drafts[position]? = some draft ∧ draft.Says edge.key
  first : ∀ draft ∈ drafts.take position, ¬ draft.Says edge.key
  absent : ∀ old ∈ store.parents.rows, old.key ≠ edge.key
  opened : edge.parentId = none
  number : edge.id =
    store.parents.issued + (drafts.take position).countP (fun draft => ¬ draft.Lacks) + 1

theorem AddedAt.lt_length (added : store.AddedAt drafts position edge) : position < drafts.length := by
  obtain ⟨draft, here, -⟩ := added.said
  exact (List.getElem?_eq_some_iff.1 here).1

theorem addParents_issued (store : Store) (drafts : List ParentDraft) :
    (store.addParents drafts).2.parents.issued =
      store.parents.issued + drafts.countP fun draft => ¬ draft.Lacks := by
  induction drafts using List.reverseRecOn with
  | nil => simp [addParents]
  | append_singleton drafts draft ih =>
      have whole := draft.isComplete_eq
      rw [addParents_concat, List.countP_append, List.countP_singleton, ← whole,
        ParentDraft.isComplete]
      rcases done : (store.addParents drafts).2.addParent (store.addParents drafts).1 draft
        with ⟨report, after⟩
      cases addParent_step done with
      | lacking complete => simpa [complete] using ih
      | known complete => simp [complete, Table.skip, Table.next, ih, Int.add_assoc]
      | new complete => simp [complete, Table.append, Table.next, ih, Int.add_assoc]

/-- After a batch the identities are those that were stored, and those that the drafts say. -/
theorem addParents_keys : (∃ edge ∈ (store.addParents drafts).2.parents.rows, edge.key = key) ↔
    (∃ edge ∈ store.parents.rows, edge.key = key) ∨ ∃ draft ∈ drafts, draft.Says key := by
  obtain ⟨added, rows, -, keys⟩ := store.addParents_rows drafts
  have said : key ∈ added.map ParentRow.key ↔ (∃ draft ∈ drafts, draft.Says key) ∧
      ¬ ∃ edge ∈ store.parents.rows, edge.key = key := by
    rw [keys]
    simp [List.removeAll, ParentDraft.complete?_eq_some_iff]
  simp only [rows, List.mem_append, or_and_right, exists_or]
  rw [← List.mem_map (l := added), said]
  constructor
  · rintro (stored | ⟨said, -⟩)
    · exact Or.inl stored
    · exact Or.inr said
  · rintro (stored | said)
    · exact Or.inl stored
    · by_cases stored : ∃ edge ∈ store.parents.rows, edge.key = key
      · exact Or.inl stored
      · exact Or.inr ⟨said, stored⟩

theorem addedAt_concat_of_lt (inside : position < drafts.length) :
    store.AddedAt (drafts ++ [draft]) position edge ↔ store.AddedAt drafts position edge := by
  have here : (drafts ++ [draft])[position]? = drafts[position]? :=
    List.getElem?_append_left inside
  have before : (drafts ++ [draft]).take position = drafts.take position :=
    List.take_append_of_le_length inside.le
  constructor
  · rintro ⟨said, first, absent, opened, number⟩
    rw [here] at said
    rw [before] at first number
    exact ⟨said, first, absent, opened, number⟩
  · rintro ⟨said, first, absent, opened, number⟩
    rw [← here] at said
    rw [← before] at first number
    exact ⟨said, first, absent, opened, number⟩

/-- The last draft adds a row if it says an identity that is not there once the others are stored. -/
theorem addedAt_concat_length : store.AddedAt (drafts ++ [draft]) drafts.length edge ↔
    draft.Says edge.key ∧ (∀ old ∈ (store.addParents drafts).2.parents.rows, old.key ≠ edge.key) ∧
      edge = .opened (store.addParents drafts).2.parents.next edge.key := by
  constructor
  · rintro ⟨⟨said, here, told⟩, first, absent, opened, number⟩
    rw [List.getElem?_concat_length, Option.some.injEq] at here
    rw [List.take_left] at first number
    subst here
    refine ⟨told, fun old member same => ?_, ?_⟩
    · rcases addParents_keys.1 ⟨old, member, same⟩ with ⟨stored, present, equal⟩ | ⟨early, listed, repeats⟩
      · exact absent stored present equal
      · exact first early listed repeats
    · rw [Table.next, addParents_issued, ← number]
      cases edge
      cases opened
      rfl
  · rintro ⟨told, absent, same⟩
    have number := congrArg ParentRow.id same
    constructor
    case said => exact ⟨draft, List.getElem?_concat_length, told⟩
    case first =>
      rw [List.take_left]
      intro early listed repeats
      obtain ⟨old, member, equal⟩ := addParents_keys.2 (Or.inr ⟨early, listed, repeats⟩)
      exact absent old member equal
    case absent =>
      intro stored present equal
      obtain ⟨old, member, equal'⟩ := addParents_keys.2 (Or.inl ⟨stored, present, equal⟩)
      exact absent old member equal'
    case opened =>
      rw [same]
      rfl
    case number =>
      rw [List.take_left, ← addParents_issued]
      exact number

theorem addedAt_concat_iff : store.AddedAt (drafts ++ [draft]) position edge ↔
    store.AddedAt drafts position edge ∨ position = drafts.length ∧ draft.Says edge.key ∧
      (∀ old ∈ (store.addParents drafts).2.parents.rows, old.key ≠ edge.key) ∧
      edge = .opened (store.addParents drafts).2.parents.next edge.key := by
  rcases Nat.lt_trichotomy position drafts.length with inside | rfl | beyond
  · rw [addedAt_concat_of_lt inside, or_iff_left fun last => inside.ne last.1]
  · rw [addedAt_concat_length, or_iff_right fun added => Nat.lt_irrefl _ added.lt_length]
    exact (and_iff_right rfl).symm
  · refine iff_of_false (fun added => ?_) ?_
    · have bound := added.lt_length
      rw [List.length_append, List.length_singleton] at bound
      omega
    · rintro (added | last)
      · exact absurd added.lt_length (Nat.lt_asymm beyond)
      · exact absurd last.1 beyond.ne'

/-- The rows that a batch adds, each with the position of its draft. -/
theorem addParents_entries (store : Store) (drafts : List ParentDraft) :
    ∃ entries : List (Nat × ParentRow),
      (store.addParents drafts).2.parents.rows = store.parents.rows ++ entries.map Prod.snd ∧
      entries.Pairwise (fun a b => a.1 < b.1) ∧
      ∀ position edge, (position, edge) ∈ entries ↔ store.AddedAt drafts position edge := by
  induction drafts using List.reverseRecOn with
  | nil =>
      refine ⟨[], (List.append_nil _).symm, .nil, fun position edge => ?_⟩
      simp only [List.not_mem_nil, false_iff]
      exact fun added => absurd added.lt_length (Nat.not_lt_zero _)
  | append_singleton drafts draft ih =>
      obtain ⟨entries, rows, ordered, listed⟩ := ih
      rw [addParents_concat]
      rcases done : (store.addParents drafts).2.addParent (store.addParents drafts).1 draft
        with ⟨report, after⟩
      -- What was added so far stays; the cases differ in what the last draft does.
      simp only [addedAt_concat_iff, ← listed, ← ParentDraft.complete?_eq_some_iff]
      cases addParent_step done with
      | lacking complete =>
          refine ⟨entries, rows, ordered, fun position edge => ?_⟩
          simp [complete]
      | known complete stored =>
          refine ⟨entries, rows, ordered, fun position edge => ?_⟩
          refine (or_iff_left ?_).symm
          rintro ⟨-, told, absent, -⟩
          obtain ⟨old, member, same⟩ := stored
          exact absent old member (same.trans (Option.some.inj (complete.symm.trans told)))
      | @new key complete absent =>
          refine ⟨entries ++ [(drafts.length, .opened (store.addParents drafts).2.parents.next key)],
            ?_, ?_, fun position edge => ?_⟩
          · rw [List.map_append, ← List.append_assoc, ← rows]
            rfl
          · refine List.pairwise_append.2 ⟨ordered, List.pairwise_singleton _ _, ?_⟩
            rintro ⟨position, edge⟩ early _ last
            rw [List.mem_singleton.1 last]
            exact ((listed position edge).1 early).lt_length
          · rw [List.mem_append, List.mem_singleton, Prod.mk.injEq]
            refine or_congr_right (and_congr_right fun _ => ?_)
            constructor
            · rintro rfl
              exact ⟨complete, absent, rfl⟩
            · rintro ⟨told, -, same⟩
              rw [Option.some.inj (complete.symm.trans told)]
              exact same

/-- After a batch every identity that it says is stored, so that the same batch adds no row again. -/
theorem addParents_again (store : Store) (drafts : List ParentDraft) :
    ((store.addParents drafts).2.addParents drafts).2.parents.rows =
      (store.addParents drafts).2.parents.rows := by
  obtain ⟨entries, rows, -, listed⟩ := (store.addParents drafts).2.addParents_entries drafts
  have nothing : entries = [] := by
    refine List.eq_nil_iff_forall_not_mem.2 fun entry member => ?_
    obtain ⟨⟨draft, here, told⟩, -, absent, -, -⟩ := (listed entry.1 entry.2).1 member
    obtain ⟨old, present, same⟩ : ∃ old ∈ (store.addParents drafts).2.parents.rows, old.key = entry.2.key :=
      addParents_keys.2 (Or.inr ⟨draft, List.mem_of_getElem? here, told⟩)
    exact absent old present same
  rw [rows, nothing, List.map_nil, List.append_nil]

structure BatchesParents (store : Store) (drafts : List ParentDraft) (report : InsertReport)
    (after : Store) : Prop where
  total : report.inserted + report.dropped + report.duplicates = drafts.length
  dropped : report.dropped = drafts.countP fun draft => draft.Lacks
  added : ∃ entries : List (Nat × ParentRow), entries.length = report.inserted ∧
    after.parents.rows = store.parents.rows ++ entries.map Prod.snd ∧
    entries.Pairwise (fun a b => a.1 < b.1) ∧
    ∀ position edge, (position, edge) ∈ entries ↔ store.AddedAt drafts position edge
  issued : after.parents.issued =
    store.parents.issued + drafts.countP fun draft => ¬ draft.Lacks
  tables : after.projects = store.projects ∧ after.entities = store.entities ∧
    after.calls = store.calls

theorem addParents_batches (store : Store) (drafts : List ParentDraft) :
    store.BatchesParents drafts (store.addParents drafts).1 (store.addParents drafts).2 := by
  obtain ⟨total, dropped, inserted⟩ := store.addParents_accounts drafts
  obtain ⟨entries, rows, ordered, listed⟩ := store.addParents_entries drafts
  refine ⟨total, ?_, ⟨entries, ?_, rows, ordered, listed⟩, store.addParents_issued drafts,
    addParents_frame drafts⟩
  · rw [dropped]
    refine List.countP_congr fun draft _ => ?_
    rw [Bool.not_eq_true', ParentDraft.isComplete_eq_false_iff, decide_eq_true_eq]
  · rw [rows, List.length_append, List.length_map] at inserted
    exact Nat.add_left_cancel inserted

theorem addParents_again_report (store : Store) (drafts : List ParentDraft) :
    ((store.addParents drafts).2.addParents drafts).1 =
      { inserted := 0, dropped := (store.addParents drafts).1.dropped,
        duplicates := (store.addParents drafts).1.inserted + (store.addParents drafts).1.duplicates } := by
  obtain ⟨total, dropped, -⟩ := store.addParents_accounts drafts
  obtain ⟨total', dropped', inserted'⟩ := (store.addParents drafts).2.addParents_accounts drafts
  rw [addParents_again] at inserted'
  generalize ((store.addParents drafts).2.addParents drafts).1 = report at *
  obtain ⟨inserted, lacking, duplicates⟩ := report
  simp only [InsertReport.mk.injEq] at *
  omega

structure Clears (store : Store) (projectId : Int) (after : Store) : Prop where
  parents : after.parents.rows = store.parents.rows.filter fun edge =>
    ¬ ∃ row ∈ store.entities.rows, row.id = edge.childId ∧ row.projectId = projectId
  issued : after.parents.issued = store.parents.issued
  tables : after.projects = store.projects ∧ after.entities = store.entities ∧
    after.calls = store.calls

theorem withoutParents_clears (store : Store) (projectId : Int) :
    store.Clears projectId (store.withoutParents projectId) where
  parents := by
    refine List.filter_congr fun edge _ => ?_
    rw [Bool.eq_iff_iff, Bool.not_eq_true', ← Bool.not_eq_true, owns_iff_row, decide_eq_true_eq]
  issued := rfl
  tables := ⟨rfl, rfl, rfl⟩

/-- A batch of parents adds a row without a link for the first draft of each new identity, in the order of
the drafts, and touches no row that is stored. Its report counts every draft once, and as dropped those that
lack something. Stored again, the batch adds nothing and all that was not dropped is a duplicate. Replacing
the parents of a project is to delete those of its declarations and then to store the batch. -/
theorem parents_batch_accounts_for_drafts (store : Store) (drafts : List ParentDraft) :
    ∃ report after, store.addParents drafts = (report, after) ∧
      store.BatchesParents drafts report after ∧
      (∃ again, after.addParents drafts =
          ({ inserted := 0, dropped := report.dropped,
             duplicates := report.inserted + report.duplicates }, again) ∧
        again.parents.rows = after.parents.rows) ∧
      ∀ projectId, ∃ cleared, store.Clears projectId cleared ∧
        store.replaceParents projectId drafts = cleared.addParents drafts := by
  refine ⟨_, _, Prod.mk.eta.symm, store.addParents_batches drafts, ⟨_, ?_, store.addParents_again drafts⟩,
    fun projectId => ⟨_, store.withoutParents_clears projectId, replaceParents_eq drafts⟩⟩
  exact Prod.ext (store.addParents_again_report drafts) rfl

-- Two spellings of one symbol, a heritage that tells two rows apart, and a symbol of blanks only.
example :
    let batch := empty.addParents
      [⟨some 1, some " Base", some .extension⟩, ⟨some 1, some "\t ", some .extension⟩,
        ⟨some 1, some "Base\n", some .extension⟩, ⟨some 1, some "Base", some .mixin⟩]
    batch.1 = ⟨2, 1, 1⟩ ∧ batch.2.parents.rows.map (·.id) = [1, 3] := by
  decide +kernel

end Store

end DeclGraph
