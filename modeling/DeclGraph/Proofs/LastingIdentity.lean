import Mathlib
import DeclGraph.Proofs.LinkedParents
import DeclGraph.Proofs.StoredParents

/-! What a number stands for over the life of a store. The counter of declarations never goes back, and
only the number after it is ever given. So a number that has been given stands for what it stood for, or
for nothing any more. Clients see numbers through readings, which cannot fail as long as all declarations
come from drafts. -/
namespace DeclGraph

def Entity.key (entity : Entity) : EntityKey :=
  entity.toEntityDraft.key entity.projectId

namespace Store

variable {store between after : Store} {projectId generation id other : Int} {key : EntityKey}

def Drafted (store : Store) : Prop :=
  ∀ row ∈ store.entities.rows, ∃ draft,
    row = EntityRow.ofDraft row.projectId row.generation draft row.id

theorem Drafted.subset (drafted : store.Drafted)
    (kept : ∀ row ∈ after.entities.rows, row ∈ store.entities.rows) : after.Drafted :=
  fun row member => drafted row (kept row member)

theorem Drafted.frame (drafted : store.Drafted) (entities : after.entities = store.entities) :
    after.Drafted :=
  drafted.subset fun _ member => entities ▸ member

theorem putEntity_drafted {draft : EntityDraft} (drafted : store.Drafted)
    (done : store.putEntity projectId generation draft = (id, after)) : after.Drafted := by
  unfold putEntity at done
  simp only at done
  split at done
  next old found =>
    cases done
    intro row member
    obtain ⟨before, present, rfl⟩ := List.mem_map.1 member
    split
    · exact ⟨draft, rfl⟩
    · exact drafted before present
  next =>
    cases done
    intro row member
    rcases List.mem_append.1 member with old | new
    · exact drafted row old
    · rw [List.mem_singleton.1 new]
      exact ⟨draft, rfl⟩

theorem Change.drafted (change : Change store after) (drafted : store.Drafted) : after.Drafted := by
  cases change with
  | putProject done => exact drafted.frame (putProject_frame done).1
  | beginGeneration done => exact drafted.frame (beginGeneration_frame done).1
  | putEntity done => exact putEntity_drafted drafted done
  | purgeStale done =>
      exact drafted.subset fun row member => ((purgeStale_purges done).mem_entities.1 member).1
  | replaceCalls done => exact drafted.frame (replaceCalls_frame done).2.1
  | addParent done => exact drafted.frame (addParent_frame done).2.1
  | dropParents done =>
      cases done
      exact drafted
  | linkParents done => exact drafted.frame (linkParents_frame done).2.1

theorem replay_drafted (operations : List Operation) : (empty.replay operations).Drafted :=
  replay_preserves Change.drafted (by simp [Drafted, empty]) operations

def Means (store : Store) (id : Int) (key : EntityKey) : Prop :=
  ∃ entity, store.entity? id = .ok (some entity) ∧ entity.key = key

theorem Drafted.means_iff (drafted : store.Drafted) :
    store.Means id key ↔ store.Identifies id key := by
  -- A declaration that comes from a draft is read as that draft, so it keeps its identity.
  have reads : ∀ row ∈ store.entities.rows, ∃ entity, row.read = .ok entity ∧ entity.key = row.key := by
    intro row member
    obtain ⟨draft, written⟩ := drafted row member
    rw [written]
    exact ⟨_, EntityRow.ofDraft_read _ _ _ _, rfl⟩
  constructor
  · rintro ⟨entity, found, rfl⟩
    obtain ⟨row, member, numbered, read⟩ := entity?_eq_some_iff.1 found
    obtain ⟨value, read', same⟩ := reads row member
    cases read.symm.trans read'
    exact ⟨row, member, numbered, same.symm⟩
  · rintro ⟨row, member, numbered, rfl⟩
    obtain ⟨entity, read, same⟩ := reads row member
    exact ⟨entity, entity?_eq_some_iff.2 ⟨row, member, numbered, read⟩, same⟩

theorem entity?_eq_none_iff_not_identifies :
    store.entity? id = .ok none ↔ ∀ key, ¬ store.Identifies id key := by
  rw [entity?_eq_none_iff]
  constructor
  · rintro missing key ⟨row, member, numbered, -⟩
    exact missing ⟨row, member, numbered⟩
  · rintro nothing ⟨row, member, numbered⟩
    exact nothing row.key ⟨row, member, numbered, rfl⟩

/-- What holds between a state and a later one: the counter has not gone back, and a number that had been
given stands for nothing that it did not stand for. -/
structure Precedes (store after : Store) : Prop where
  issued : store.entities.issued ≤ after.entities.issued
  kept : ∀ id key, id ≤ store.entities.issued → after.Identifies id key → store.Identifies id key

theorem Precedes.frame (entities : after.entities = store.entities) : Precedes store after where
  issued := by rw [entities]
  kept _ _ _ := by
    simp only [Identifies, entities]
    exact id

theorem Precedes.trans (first : Precedes store between) (second : Precedes between after) :
    Precedes store after where
  issued := first.issued.trans second.issued
  kept id key given stands :=
    first.kept id key given (second.kept id key (given.trans first.issued) stands)

theorem putEntity_issued {draft : EntityDraft}
    (done : store.putEntity projectId generation draft = (id, after)) :
    after.entities.issued = store.entities.next := by
  unfold putEntity at done
  simp only at done
  split at done <;> cases done <;> rfl

theorem putEntity_precedes {draft : EntityDraft}
    (done : store.putEntity projectId generation draft = (id, after)) : Precedes store after where
  issued := by
    rw [putEntity_issued done]
    exact Int.le_of_lt (Int.lt_succ _)
  kept other key given stands := by
    obtain ⟨own, origin, identifies⟩ := putEntity_identifies done
    rcases (identifies other key).1 stands with old | ⟨rfl, rfl⟩
    · exact old
    · rcases origin with old | rfl
      · exact old
      · exact absurd given (Int.not_le.2 (Int.lt_succ _))

theorem purgeStale_precedes {removed : Nat}
    (done : store.purgeStale projectId generation = (removed, after)) : Precedes store after where
  issued := by
    cases done
    exact Int.le_refl _
  kept _ _ _ stands := purgeStale_identifies done stands

theorem Change.precedes (change : Change store after) : Precedes store after := by
  cases change with
  | putProject done => exact .frame (putProject_frame done).1
  | beginGeneration done => exact .frame (beginGeneration_frame done).1
  | putEntity done => exact putEntity_precedes done
  | purgeStale done => exact purgeStale_precedes done
  | replaceCalls done => exact .frame (replaceCalls_frame done).2.1
  | addParent done => exact .frame (addParent_frame done).2.1
  | dropParents done =>
      cases done
      exact .frame rfl
  | linkParents done => exact .frame (linkParents_frame done).2.1

theorem replay_precedes (store : Store) (operations : List Operation) :
    Precedes store (store.replay operations) :=
  replay_preserves (P := Precedes store) (fun change before => before.trans change.precedes)
    (.frame rfl) operations

theorem Identifies.given (stands : store.Identifies id key) : id ≤ store.entities.issued :=
  Int.lt_add_one_iff.1 stands.lt_next

/-- Later on, a number stands for the same identity or for none. -/
theorem Precedes.same_key (precedes : Precedes store after) (stands : store.Identifies id key)
    {key' : EntityKey} (stands' : after.Identifies id key') : key' = key :=
  (precedes.kept id key' stands.given stands').unique stands

/-- A number that has been given and stands for nothing stays without a meaning. -/
theorem Precedes.gone (precedes : Precedes store after) (given : id ≤ store.entities.issued)
    (gone : store.entity? id = .ok none) : after.entity? id = .ok none := by
  rw [entity?_eq_none_iff_not_identifies] at gone ⊢
  exact fun key stands => gone key (precedes.kept id key given stands)

/-- From a state on, a number stands for an identity until it is gone, and then it is gone for good. -/
def Keeps (store : Store) (id : Int) (key : EntityKey) : Prop :=
  ∀ later, (store.replay later).Means id key ∨
    ∀ further, (store.replay (later ++ further)).entity? id = .ok none

theorem Identifies.keeps (stands : store.Identifies id key) (drafted : store.Drafted) :
    store.Keeps id key := by
  intro later
  have precedes := replay_precedes store later
  by_cases left : ∃ key', (store.replay later).Identifies id key'
  · obtain ⟨key', stands'⟩ := left
    obtain rfl := precedes.same_key stands stands'
    have drafted' : (store.replay later).Drafted := replay_preserves Change.drafted drafted later
    exact Or.inl (drafted'.means_iff.2 stands')
  · right
    intro further
    rw [replay, List.foldl_append]
    apply (replay_precedes (store.replay later) further).gone (stands.given.trans precedes.issued)
    exact entity?_eq_none_iff_not_identifies.2 (not_exists.1 left)

def ParentsKeyed (store : Store) : Prop :=
  (store.parents.rows.map ParentRow.key).Nodup

theorem ParentsKeyed.sublist (keyed : store.ParentsKeyed)
    (kept : after.parents.rows.Sublist store.parents.rows) : after.ParentsKeyed :=
  List.Nodup.sublist (kept.map _) keyed

theorem ParentsKeyed.frame (keyed : store.ParentsKeyed) (parents : after.parents = store.parents) :
    after.ParentsKeyed :=
  keyed.sublist (parents ▸ List.Sublist.refl _)

theorem addParent_parentsKeyed {before report : InsertReport} {draft : ParentDraft}
    (keyed : store.ParentsKeyed) (done : store.addParent before draft = (report, after)) :
    after.ParentsKeyed := by
  obtain ⟨added, rows, -, keys⟩ := addParent_rows store before draft
  rw [done] at rows
  rw [ParentsKeyed, show after.parents.rows = _ from rows, List.map_append, keys]
  refine List.Nodup.append keyed ?_ ?_
  · cases draft.complete? with
    | none => exact List.nodup_nil
    | some own => exact (List.nodup_singleton own).filter _
  · -- What is added is what is left of the draft once all stored identities are taken away.
    intro own stored new
    have absent := (List.mem_filter.1 new).2
    simp only [Bool.not_eq_true', List.elem_eq_mem, decide_eq_false_iff_not] at absent
    exact absent stored

theorem Change.parentsKeyed (change : Change store after) (keyed : store.ParentsKeyed) :
    after.ParentsKeyed := by
  cases change with
  | putProject done => exact keyed.frame (putProject_frame done).2.2
  | beginGeneration done => exact keyed.frame (beginGeneration_frame done).2.2
  | putEntity done => exact keyed.frame (putEntity_frame done).2.2
  | purgeStale done =>
      cases done
      exact keyed.sublist List.filter_sublist
  | replaceCalls done => exact keyed.frame (replaceCalls_frame done).2.2
  | addParent done => exact addParent_parentsKeyed keyed done
  | dropParents done =>
      cases done
      exact keyed.sublist List.filter_sublist
  | @linkParents projectId _ done =>
      cases done
      unfold ParentsKeyed at keyed
      have keys : (store.parents.rows.map (store.link projectId)).map ParentRow.key =
          store.parents.rows.map ParentRow.key := by
        rw [List.map_map]
        exact List.map_congr_left fun edge _ => link_key store projectId edge
      rw [← keys] at keyed
      exact keyed

/-- Over the whole life of a store, identities last. The number that comes back for a draft, or for each of
a batch of drafts, is read as a declaration of that identity; later on it still is, or it is gone, and then
for good. The same goes for every number that can be read at any time. No two declarations share an
identity, and no two parents do. -/
theorem numbers_keep_identities (operations : List Operation) :
    (∀ projectId generation draft id after,
      (empty.replay operations).putEntity projectId generation draft = (id, after) →
        after.Means id (draft.key projectId) ∧ after.Keeps id (draft.key projectId)) ∧
    (∀ projectId generation drafts ids after,
      (empty.replay operations).putEntities projectId generation drafts = (ids, after) →
        List.Forall₂ (fun draft id => after.Means id (draft.key projectId) ∧
          after.Keeps id (draft.key projectId)) drafts ids) ∧
    (∀ id key, (empty.replay operations).Means id key → (empty.replay operations).Keeps id key) ∧
    (∀ id other key, (empty.replay operations).Means id key →
      (empty.replay operations).Means other key → id = other) ∧
    ((empty.replay operations).parents.rows.map ParentRow.key).Nodup := by
  have drafted := replay_drafted operations
  have keyed := replay_keyed operations
  have parentsKeyed : (empty.replay operations).ParentsKeyed :=
    replay_preserves Change.parentsKeyed (by simp [ParentsKeyed, empty]) operations
  refine ⟨?_, ?_, ?_, ?_, parentsKeyed⟩
  · intro projectId generation draft id after done
    have drafted' := putEntity_drafted drafted done
    have stands := putEntity_numbers keyed done
    exact ⟨drafted'.means_iff.2 stands, stands.keeps drafted'⟩
  · intro projectId generation drafts ids after done
    have drafted' : after.Drafted := by
      rw [← show _ = after from congrArg Prod.snd done]
      exact replay_preserves Change.drafted drafted [.putEntities projectId generation drafts]
    refine (putEntities_numbers keyed done).imp fun draft id stands => ?_
    exact ⟨drafted'.means_iff.2 stands, stands.keeps drafted'⟩
  · intro id key means
    exact (drafted.means_iff.1 means).keeps drafted
  · intro id other key means means'
    exact keyed.number_eq (drafted.means_iff.1 means) (drafted.means_iff.1 means')

/-! A declaration is stored twice, purged and stored again. It has a new number then, and its old one is
gone. -/

def basePut (generation : Int) : Operation :=
  .putEntity 1 generation (classDraft "Base" "a.py")

def purgedHistory : List Operation :=
  [basePut 1, basePut 1, .purgeStale 1 2]

theorem base_number_not_reused :
    (empty.replay [basePut 1]).Means 1 ((classDraft "Base" "a.py").key 1) ∧
      (empty.replay [basePut 1]).Keeps 1 ((classDraft "Base" "a.py").key 1) ∧
      (empty.replay (purgedHistory ++ [basePut 2])).entity? 1 = .ok none ∧
      (empty.replay (purgedHistory ++ [basePut 2])).Means 3 ((classDraft "Base" "a.py").key 1) := by
  have first : (empty.replay [basePut 1]).Means 1 ((classDraft "Base" "a.py").key 1) :=
    ⟨⟨classDraft "Base" "a.py", 1, 1⟩, by cbv, rfl⟩
  have again : (empty.replay purgedHistory).putEntity 1 2 (classDraft "Base" "a.py") =
      (3, empty.replay (purgedHistory ++ [basePut 2])) := rfl
  refine ⟨first, (numbers_keep_identities [basePut 1]).2.2.1 1 _ first, by cbv, ?_⟩
  exact ((numbers_keep_identities purgedHistory).1 1 2 _ 3 _ again).1

end Store

end DeclGraph
