import Mathlib
import DeclGraph.Proofs.LastingIdentity

/-! Batches of drafts by position. The number at a position belongs to the identity of the draft there, so that
equal identities have equal numbers wherever they stand in the batch. A number is old if its identity was
stored before. In the end the last draft of an identity has written the row, and rows of other identities
have not been touched. -/
namespace DeclGraph

variable {drafts : List EntityDraft} {draft last : EntityDraft}

/-- Changing rows that fail a test, into rows that fail it, is not seen by the test. -/
theorem filter_map_of_failing {α : Type} {rows : List α} {change : α → α} {test : α → Bool}
    (fails : ∀ row ∈ rows, change row = row ∨ test row = false ∧ test (change row) = false) :
    (rows.map change).filter test = rows.filter test := by
  induction rows with
  | nil => rfl
  | cons row rest ih =>
      have tail := ih fun later member => fails later (List.mem_cons_of_mem row member)
      rcases fails row List.mem_cons_self with same | ⟨before, changed⟩
      · rw [List.map_cons, same, List.filter_cons, List.filter_cons, tail]
      · rw [List.map_cons, List.filter_cons_of_neg (by simp [changed]),
          List.filter_cons_of_neg (by simp [before]), tail]

theorem lastDrafts_split (member : last ∈ lastDrafts drafts) :
    ∃ before later, drafts = before ++ last :: later ∧
      ∀ other ∈ later, other.identity ≠ last.identity := by
  induction drafts with
  | nil => cases member
  | cons first rest ih =>
      rw [lastDrafts] at member
      by_cases repeated : rest.any (·.identity == first.identity) = true
      · rw [if_pos repeated] at member
        obtain ⟨before, later, split, apart⟩ := ih member
        exact ⟨first :: before, later, congrArg (first :: ·) split, apart⟩
      · rw [if_neg repeated] at member
        rcases List.mem_cons.1 member with rfl | member
        · refine ⟨[], rest, rfl, fun other present same => repeated ?_⟩
          exact List.any_eq_true.2 ⟨other, present, beq_iff_eq.2 same⟩
        · obtain ⟨before, later, split, apart⟩ := ih member
          exact ⟨first :: before, later, congrArg (first :: ·) split, apart⟩

namespace Store

variable {store after : Store} {projectId generation id : Int} {ids : List Int}

theorem putEntity_filter (test : EntityKey → Bool) (fails : test (draft.key projectId) = false)
    (done : store.putEntity projectId generation draft = (id, after)) :
    after.entities.rows.filter (test ·.key) = store.entities.rows.filter (test ·.key) := by
  unfold putEntity at done
  simp only [EntityRow.ofDraft_key] at done
  split at done
  next old found =>
    have hit := List.find?_some found
    have same : old.key = draft.key projectId := beq_iff_eq.1 hit
    have member := List.mem_of_find?_eq_some found
    cases done
    refine filter_map_of_failing fun row present => ?_
    by_cases numbered : row.id = old.id
    · -- The row that is overwritten is the only one of its number.
      obtain rfl := List.inj_on_of_nodup_map store.entities.ids_nodup present member numbered
      right
      rw [if_pos rfl, EntityRow.ofDraft_key, same]
      exact ⟨fails, fails⟩
    · exact Or.inl (if_neg numbered)
  next =>
    cases done
    dsimp only [Table.append]
    rw [List.filter_append, List.filter_singleton, EntityRow.ofDraft_key, fails]
    exact List.append_nil _

theorem putEntities_filter (test : EntityKey → Bool)
    (fails : ∀ draft ∈ drafts, test (draft.key projectId) = false)
    (done : store.putEntities projectId generation drafts = (ids, after)) :
    after.entities.rows.filter (test ·.key) = store.entities.rows.filter (test ·.key) := by
  induction drafts generalizing store ids with
  | nil =>
      cases done
      rfl
  | cons draft rest ih =>
      obtain ⟨id, between, others, first, remaining, rfl⟩ := putEntities_cons done
      have later := ih (fun other member => fails other (List.mem_cons_of_mem draft member)) remaining
      exact later.trans (putEntity_filter test (fails draft List.mem_cons_self) first)

def NumberedAt (drafts : List EntityDraft) (ids : List Int) (position : Nat) (draft : EntityDraft)
    (id : Int) : Prop :=
  drafts[position]? = some draft ∧ ids[position]? = some id

structure Batched (store : Store) (projectId generation : Int) (drafts : List EntityDraft)
    (ids : List Int) (after : Store) : Prop where
  length : ids.length = drafts.length
  same_iff : ∀ i j draft other id id', NumberedAt drafts ids i draft id →
    NumberedAt drafts ids j other id' → (id = id' ↔ draft.identity = other.identity)
  old_iff : ∀ i draft id, NumberedAt drafts ids i draft id →
    (store.Holds id ↔ ∃ row ∈ store.entities.rows, row.key = draft.key projectId)
  fresh : ∀ id ∈ ids, store.Holds id ∨ store.entities.issued < id
  written : ∀ i draft id, NumberedAt drafts ids i draft id →
    ∃ before last later, drafts = before ++ last :: later ∧ last.identity = draft.identity ∧
      (∀ other ∈ later, other.identity ≠ draft.identity) ∧
      after.entities.find? id = some (EntityRow.ofDraft projectId generation last id) ∧
      after.entity? id = .ok (some { toEntityDraft := last, id, projectId })
  others : after.entities.rows.filter (fun row => ∀ draft ∈ drafts, row.key ≠ draft.key projectId) =
    store.entities.rows.filter (fun row => ∀ draft ∈ drafts, row.key ≠ draft.key projectId)
  keyed : after.Keyed
  tables : after.projects = store.projects ∧ after.calls = store.calls ∧ after.parents = store.parents

section Numbers

variable {i j : Nat} {other : EntityDraft} {id' : Int} (keyed : store.Keyed)
  (done : store.putEntities projectId generation drafts = (ids, after))
include keyed done

theorem putEntities_identifies_at (here : NumberedAt drafts ids i draft id) :
    after.Identifies id (draft.key projectId) := by
  obtain ⟨bound, rfl⟩ := List.getElem?_eq_some_iff.1 here.1
  obtain ⟨bound', rfl⟩ := List.getElem?_eq_some_iff.1 here.2
  exact (putEntities_numbers keyed done).get bound bound'

theorem putEntities_same_iff (here : NumberedAt drafts ids i draft id)
    (there : NumberedAt drafts ids j other id') : id = id' ↔ draft.identity = other.identity := by
  have first := putEntities_identifies_at keyed done here
  have second := putEntities_identifies_at keyed done there
  have keys : draft.key projectId = other.key projectId ↔ _ := EntityDraft.key_eq_iff
  rw [← keys]
  constructor
  · rintro rfl
    exact first.unique second
  · intro same
    exact (putEntities_keyed keyed done).number_eq first (same ▸ second)

theorem putEntities_old_iff (here : NumberedAt drafts ids i draft id) :
    store.Holds id ↔ ∃ row ∈ store.entities.rows, row.key = draft.key projectId := by
  have now := putEntities_identifies_at keyed done here
  constructor
  · rintro ⟨row, member, rfl⟩
    have kept := putEntities_identifies_mono done ⟨row, member, rfl, rfl⟩
    exact ⟨row, member, kept.unique now⟩
  · rintro ⟨row, member, same⟩
    have kept := putEntities_identifies_mono done ⟨row, member, rfl, same⟩
    exact ⟨row, member, (putEntities_keyed keyed done).number_eq kept now⟩

theorem putEntities_fresh (member : id ∈ ids) : store.Holds id ∨ store.entities.issued < id := by
  obtain ⟨draft, -, now⟩ := exists_left_of_mem (putEntities_numbers keyed done) member
  by_cases given : id ≤ store.entities.issued
  · have precedes : Precedes store after := by
      rw [← show _ = after from congrArg Prod.snd done]
      exact replay_precedes store [.putEntities projectId generation drafts]
    obtain ⟨row, present, numbered, -⟩ := precedes.kept id _ given now
    exact Or.inl ⟨row, present, numbered⟩
  · exact Or.inr (Int.not_le.1 given)

/-- The row of a number is written by the last draft of its identity, and by all of that draft. -/
theorem putEntities_written (here : NumberedAt drafts ids i draft id) :
    ∃ last ∈ lastDrafts drafts, last.identity = draft.identity ∧
      EntityRow.ofDraft projectId generation last id ∈ after.entities.rows := by
  obtain ⟨row, member, rfl, same⟩ := putEntities_identifies_at keyed done here
  rcases putEntities_origin keyed done member with ⟨-, apart⟩ | ⟨last, listed, written⟩
  · exact absurd same (apart draft (List.mem_of_getElem? here.1))
  · refine ⟨last, listed, ?_, written ▸ member⟩
    rw [← EntityDraft.key_eq_iff, ← same, written]
    rfl

end Numbers

/-- A batch stored at any time in the life of a store gives back one number for each draft, in order. Two
positions have one number exactly if their drafts share an identity, and a number is old exactly if its
identity was stored in the project. Every number then holds what the last draft of its identity says,
with the given generation; declarations of other identities and the other tables are as before. -/
theorem batch_keeps_positions (operations : List Operation) (projectId generation : Int)
    (drafts : List EntityDraft) :
    ∃ ids after,
      (empty.replay operations).putEntities projectId generation drafts = (ids, after) ∧
      (empty.replay operations).Batched projectId generation drafts ids after := by
  have keyed := replay_keyed operations
  rcases done : (empty.replay operations).putEntities projectId generation drafts with ⟨ids, after⟩
  refine ⟨ids, after, rfl, ?_⟩
  constructor
  case length => exact (putEntities_numbers keyed done).length_eq.symm
  case same_iff => exact fun i j draft other id id' => putEntities_same_iff keyed done
  case old_iff => exact fun i draft id => putEntities_old_iff keyed done
  case fresh => exact fun id => putEntities_fresh keyed done
  case written =>
    intro i draft id here
    obtain ⟨last, listed, same, member⟩ := putEntities_written keyed done here
    obtain ⟨before, later, split, apart⟩ := lastDrafts_split listed
    refine ⟨before, last, later, split, same, fun other present => ?_, ?_, ?_⟩
    · rw [← same]
      exact apart other present
    · exact Table.find?_eq_some_iff.2 ⟨member, rfl⟩
    · exact entity?_eq_some_iff.2 ⟨_, member, rfl, EntityRow.ofDraft_read ..⟩
  case others =>
    refine putEntities_filter (fun key => ∀ draft ∈ drafts, key ≠ draft.key projectId) ?_ done
    intro draft member
    rw [decide_eq_false_iff_not]
    exact fun apart => apart draft member rfl
  case keyed => exact putEntities_keyed keyed done
  case tables => exact putEntities_frame done

-- The second draft overwrites the first, but has taken a number.
example : (empty.putEntities 1 1
    [classDraft "Base" "a.py", classDraft "Base" "a.py", classDraft "Base" "b.py"]).1 = [1, 1, 3] := by
  cbv

end Store

end DeclGraph
