import Mathlib
import DeclGraph.Hierarchy.Queries
import DeclGraph.Proofs.Refreshes

/-! What becomes of parents in the store. A batch of drafts is stored behind the parents that are there:
one for each complete draft whose identity is new, and not linked. A refresh drops the parents of its
project's declarations first, so that nothing it stores repeats something older. The parents of other
declarations stay as the purge has left them. -/
namespace DeclGraph

open Refresh Extract

/-- One more item adds itself, unless it has occurred or is in the list that is taken away. -/
theorem removeAll_eraseDups_append {α : Type} [BEq α] [LawfulBEq α] (items old : List α)
    (item : Option α) :
    (items ++ item.toList).eraseDups.removeAll old =
      items.eraseDups.removeAll old ++
        item.toList.removeAll (old ++ items.eraseDups.removeAll old) := by
  cases item with
  | none => simp [List.removeAll]
  | some x =>
      rw [List.eraseDups_append, List.removeAll, List.filter_append]
      congr 1
      by_cases known : x ∈ old
      · by_cases repeated : x ∈ items
        · simp [List.removeAll, known, repeated]
        · simp [List.removeAll, known, repeated, List.eraseDups_cons]
      · by_cases repeated : x ∈ items
        · simp [List.removeAll, known, repeated]
        · simp [List.removeAll, known, repeated, List.eraseDups_cons]

theorem nodup_eraseDups {α : Type} [BEq α] [LawfulBEq α] (items : List α) : items.eraseDups.Nodup := by
  induction items using List.reverseRecOn with
  | nil => exact List.nodup_nil
  | append_singleton items item ih =>
      rw [List.eraseDups_append]
      by_cases repeated : item ∈ items
      · simpa [List.removeAll, repeated] using ih
      · have last : ([item].removeAll items).eraseDups = [item] := by
          simp [List.removeAll, repeated, List.eraseDups_cons]
        rw [last]
        refine ih.append (List.nodup_singleton item) ?_
        simpa using repeated

theorem eraseDups_map {α β : Type} [BEq α] [LawfulBEq α] [BEq β] [LawfulBEq β] {f : α → β}
    (injective : f.Injective) (items : List α) : (items.map f).eraseDups = items.eraseDups.map f := by
  induction items using List.reverseRecOn with
  | nil => rfl
  | append_singleton items item ih =>
      have repeated : f item ∈ items.map f ↔ item ∈ items := List.mem_map_of_injective injective
      rw [List.map_append, List.eraseDups_append, List.eraseDups_append, List.map_append, ih]
      congr 1
      by_cases known : item ∈ items
      · simp [List.removeAll, repeated, known]
      · simp [List.removeAll, repeated, known, List.eraseDups_cons]

theorem ParentDraft.complete?_stored {draft : ParentDraft} {childId : Int} {symbol : String}
    {heritage : String} (complete : draft.complete? = some (childId, symbol, heritage)) :
    draft.childId = some childId ∧ ∃ known : Heritage, heritage = known.name := by
  obtain ⟨child, here, complete⟩ := Option.bind_eq_some_iff.1 complete
  obtain ⟨text, -, complete⟩ := Option.bind_eq_some_iff.1 complete
  obtain ⟨known, -, complete⟩ := Option.bind_eq_some_iff.1 complete
  split at complete
  next => cases complete
  next =>
    cases complete
    exact ⟨here, known, rfl⟩

namespace Store

variable {store after : Store} {projectId : Int}

theorem addParent_rows (store : Store) (report : InsertReport) (draft : ParentDraft) :
    ∃ added, (store.addParent report draft).2.parents.rows = store.parents.rows ++ added ∧
      (∀ edge ∈ added, edge.parentId = none) ∧
      added.map ParentRow.key =
        draft.complete?.toList.removeAll (store.parents.rows.map ParentRow.key) := by
  rcases done : store.addParent report draft with ⟨counted, after⟩
  dsimp only
  cases addParent_step done with
  | lacking complete => exact ⟨[], (List.append_nil _).symm, by simp, by rw [complete]; rfl⟩
  | known complete stored =>
      refine ⟨[], (List.append_nil _).symm, by simp, ?_⟩
      simpa [complete, List.removeAll] using stored
  | @new key complete absent =>
      refine ⟨[.opened store.parents.next key], rfl, by simp [ParentRow.opened], ?_⟩
      rw [complete]
      refine (List.filter_eq_self.2 ?_).symm
      simpa using absent

theorem addParents_concat (store : Store) (drafts : List ParentDraft) (draft : ParentDraft) :
    store.addParents (drafts ++ [draft]) =
      (store.addParents drafts).2.addParent (store.addParents drafts).1 draft := by
  simp only [addParents, List.foldl_append, List.foldl_cons, List.foldl_nil]

/-- A batch adds the first occurrence of each identity that is not stored yet. -/
theorem addParents_rows (store : Store) (drafts : List ParentDraft) :
    ∃ added, (store.addParents drafts).2.parents.rows = store.parents.rows ++ added ∧
      (∀ edge ∈ added, edge.parentId = none) ∧
      added.map ParentRow.key =
        (drafts.filterMap ParentDraft.complete?).eraseDups.removeAll
          (store.parents.rows.map ParentRow.key) := by
  induction drafts using List.reverseRecOn with
  | nil => exact ⟨[], (List.append_nil _).symm, by simp, rfl⟩
  | append_singleton drafts draft ih =>
      obtain ⟨added, rows, unlinked, keys⟩ := ih
      obtain ⟨more, rows', unlinked', keys'⟩ :=
        addParent_rows (store.addParents drafts).2 (store.addParents drafts).1 draft
      refine ⟨added ++ more, ?_, ?_, ?_⟩
      · rw [addParents_concat, rows', rows, List.append_assoc]
      · intro edge listed
        rcases List.mem_append.1 listed with early | late
        · exact unlinked edge early
        · exact unlinked' edge late
      · have single : [draft].filterMap ParentDraft.complete? = draft.complete?.toList := by
          cases complete : draft.complete? <;> simp [complete]
        rw [List.map_append, keys', rows, List.map_append, keys, List.filterMap_append, single,
          removeAll_eraseDups_append]

def withoutParents (store : Store) (projectId : Int) : Store :=
  { store with parents := store.parents.filter (!store.owns projectId ·.childId) }

theorem replaceParents_eq (drafts : List ParentDraft) :
    store.replaceParents projectId drafts = (store.withoutParents projectId).addParents drafts :=
  rfl

theorem link_congr (entities : after.entities = store.entities) :
    after.link projectId = store.link projectId := by
  funext edge
  rw [link_eq, link_eq, isOpen, isOpen, candidate?, candidate?, owns_congr entities, entities]

@[simp] theorem link_childId (store : Store) (projectId : Int) (edge : ParentRow) :
    (store.link projectId edge).childId = edge.childId := by
  unfold link
  split <;> rfl

@[simp] theorem link_heritage (store : Store) (projectId : Int) (edge : ParentRow) :
    (store.link projectId edge).heritage = edge.heritage := by
  unfold link
  split <;> rfl

@[simp] theorem link_key (store : Store) (projectId : Int) (edge : ParentRow) :
    (store.link projectId edge).key = edge.key := by
  unfold link
  split <;> rfl

def HeritagesKnown (store : Store) : Prop :=
  ∀ row ∈ store.parents.rows, ∃ heritage : Heritage, row.heritage = heritage.name

theorem HeritagesKnown.subset (known : store.HeritagesKnown)
    (kept : ∀ row ∈ after.parents.rows, row ∈ store.parents.rows) : after.HeritagesKnown :=
  fun row member => known row (kept row member)

theorem addParent_heritages {before report : InsertReport} {draft : ParentDraft}
    (known : store.HeritagesKnown) (done : store.addParent before draft = (report, after)) :
    after.HeritagesKnown := by
  cases addParent_step done with
  | lacking complete => exact known
  | known complete stored => exact known
  | @new key complete absent =>
      intro row member
      rcases List.mem_append.1 member with old | new
      · exact known row old
      · cases List.mem_singleton.1 new
        exact (ParentDraft.complete?_stored complete).2

theorem Change.heritagesKnown (change : Change store after) (known : store.HeritagesKnown) :
    after.HeritagesKnown := by
  cases change with
  | putProject done => exact known.subset fun row => (putProject_frame done).2.2 ▸ id
  | beginGeneration done => exact known.subset fun row => (beginGeneration_frame done).2.2 ▸ id
  | putEntity done => exact known.subset fun row => (putEntity_frame done).2.2 ▸ id
  | purgeStale done =>
      exact known.subset fun row member => ((purgeStale_purges done).mem_parents.1 member).1
  | replaceCalls done => exact known.subset fun row => (replaceCalls_frame done).2.2 ▸ id
  | addParent done => exact addParent_heritages known done
  | dropParents done =>
      cases done
      exact known.subset fun row => List.mem_of_mem_filter
  | @linkParents projectId _ done =>
      cases done
      intro row member
      obtain ⟨before, present, rfl⟩ := List.mem_map.1 member
      rw [link_heritage]
      exact known before present

theorem replay_heritagesKnown (operations : List Operation) :
    (empty.replay operations).HeritagesKnown :=
  replay_preserves Change.heritagesKnown (by simp [HeritagesKnown, empty]) operations

theorem HeritagesKnown.refresh (known : store.HeritagesKnown) {name rootPath : String} {scanned : Nat}
    {files : List FileFacts} {report : RefreshReport}
    (success : store.refresh name rootPath scanned files = .ok (report, after)) : after.HeritagesKnown := by
  have kept := replay_preserves Change.heritagesKnown known [.refresh name rootPath scanned files]
  simpa only [replay, List.foldl_cons, List.foldl_nil, apply, success] using kept

theorem HeritagesKnown.read (known : store.HeritagesKnown) {rows : List ParentRow}
    (stored : rows ⊆ store.parents.rows) : ∃ edges, rows.mapM ParentRow.read = .ok edges := by
  refine mapM_succeeds fun row member => ?_
  obtain ⟨heritage, named⟩ := known row (stored member)
  exact ⟨_, bind_eq_ok.2 ⟨heritage, readHeritage_eq_ok.2 named, rfl⟩⟩

theorem HeritagesKnown.parentsOf (known : store.HeritagesKnown) (id : Int) :
    ∃ links, store.parentsOf id = .ok links := by
  obtain ⟨edges, read⟩ := known.read List.filter_sublist.subset
  exact ⟨_, bind_eq_ok.2 ⟨edges, read, rfl⟩⟩

theorem HeritagesKnown.childRows (known : store.HeritagesKnown)
    (accept : EntityRow → ParentRow → Bool) :
    ∃ links, (store.childRows accept).mapM ChildRow.read = .ok links := by
  refine mapM_succeeds fun row member => ?_
  obtain ⟨stored, present, kept⟩ := List.mem_filterMap.1 member
  obtain ⟨child, -, kept⟩ := Option.bind_eq_some_iff.1 kept
  split at kept
  next =>
    cases kept
    obtain ⟨heritage, named⟩ := known stored present
    exact ⟨_, bind_eq_ok.2 ⟨heritage, readHeritage_eq_ok.2 named, rfl⟩⟩
  next => cases kept

theorem HeritagesKnown.parentEdgesOf (known : store.HeritagesKnown) (projectId : Int) :
    ∃ edges, store.parentEdgesOf projectId = .ok edges :=
  known.read List.filter_sublist.subset

end Store

namespace Refresh

variable {files : List FileFacts} {ids : List Int}

/-- Parents are extracted for definitions of the refresh. -/
theorem allParents_children {draft : ParentDraft} {child : Int}
    (member : draft ∈ allParents files ids) (known : draft.childId = some child) : child ∈ ids := by
  obtain ⟨⟨file, offset⟩, -, member⟩ := List.mem_flatMap.1 member
  rcases List.mem_append.1 member with defined | added
  · obtain ⟨⟨definition, position⟩, -, member⟩ := List.mem_flatMap.1 defined
    obtain ⟨parent, -, rfl⟩ := List.mem_map.1 member
    exact List.mem_of_getElem? known
  · obtain ⟨block, -, member⟩ := List.mem_flatMap.1 added
    obtain ⟨parent, -, rfl⟩ := List.mem_map.1 member
    exact lookup_mem known

end Refresh

namespace Refresh.Stages

open Store

variable {store after : Store} {name rootPath : String} {scanned : Nat} {files : List FileFacts}
  {report : RefreshReport} (stages : Stages store name rootPath scanned files report after)
include stages

theorem called_entities : stages.called.entities = after.entities := by
  rw [stages.after_entities, (replaceCalls_frame stages.calls).2.1]

theorem stored_parents : stages.stored.parents = store.parents :=
  (putEntities_frame stages.stores).2.2.trans
    ((beginGeneration_frame stages.begins).2.2.trans (putProject_frame stages.moves).2.2)

theorem named_entities : stages.named.entities = after.entities := by
  rw [(replaceParents_frame stages.names).2.1, stages.called_entities]

/-- Before they are linked, the parents are what the purge left of other declarations' parents, then those
of the project, each identity where it was extracted first. -/
theorem named_parents (keyed : store.Keyed) : ∃ added : List ParentRow,
    stages.named.parents.rows =
      stages.called.parents.rows.filter (!after.owns stages.project.id ·.childId) ++ added ∧
    (∀ edge ∈ added, edge.parentId = none ∧ after.owns stages.project.id edge.childId = true) ∧
    added.map ParentRow.key =
      ((allParents files stages.ids).filterMap ParentDraft.complete?).eraseDups := by
  have owns : stages.called.owns stages.project.id = after.owns stages.project.id :=
    owns_congr stages.called_entities
  obtain ⟨added, rows, unlinked, keys⟩ :=
    addParents_rows (stages.called.withoutParents stages.project.id) (allParents files stages.ids)
  rw [← replaceParents_eq, stages.names] at rows
  dsimp only [withoutParents, Table.filter] at rows keys
  rw [owns] at rows keys
  have owned : ∀ key ∈ (allParents files stages.ids).filterMap ParentDraft.complete?,
      after.owns stages.project.id key.1 = true := by
    intro key listed
    obtain ⟨draft, member, complete⟩ := List.mem_filterMap.1 listed
    exact stages.owns_number keyed
      (allParents_children member (ParentDraft.complete?_stored complete).1)
  -- What was kept belongs to other declarations, so it has none of the new identities.
  have fresh : added.map ParentRow.key =
      ((allParents files stages.ids).filterMap ParentDraft.complete?).eraseDups := by
    rw [keys, List.removeAll, List.filter_eq_self]
    intro key listed
    simp only [Bool.not_eq_true', List.elem_eq_mem, decide_eq_false_iff_not]
    intro stored
    obtain ⟨edge, kept, rfl⟩ := List.mem_map.1 stored
    have foreign := (List.mem_filter.1 kept).2
    have own := owned _ (List.mem_eraseDups.1 listed)
    rw [Bool.not_eq_true'] at foreign
    rw [show edge.key.1 = edge.childId from rfl, foreign] at own
    cases own
  refine ⟨added, rows, fun edge listed => ⟨unlinked edge listed, ?_⟩, fresh⟩
  have key : edge.key ∈ added.map ParentRow.key := List.mem_map_of_mem listed
  rw [fresh] at key
  exact owned _ (List.mem_eraseDups.1 key)

theorem after_parents :
    after.parents.rows = stages.named.parents.rows.map (after.link stages.project.id) := by
  have linked := congrArg (fun result => result.2.parents.rows) stages.links
  rw [← link_congr stages.named_entities]
  exact linked.symm

/-- A refresh links the parents of the project as far as that can be, and leaves the others alone. -/
theorem parents_rows (keyed : store.Keyed) : ∃ added : List ParentRow,
    after.parents.rows =
      stages.called.parents.rows.filter (!after.owns stages.project.id ·.childId) ++
        added.map (after.link stages.project.id) ∧
    (∀ edge ∈ added, edge.parentId = none ∧ after.owns stages.project.id edge.childId = true) ∧
    added.map ParentRow.key =
      ((allParents files stages.ids).filterMap ParentDraft.complete?).eraseDups := by
  obtain ⟨added, rows, owned, keys⟩ := stages.named_parents keyed
  refine ⟨added, ?_, owned, keys⟩
  rw [stages.after_parents, rows, List.map_append]
  congr 1
  refine (List.map_congr_left fun edge kept => ?_).trans (List.map_id _)
  apply link_not_owned
  simpa using (List.mem_filter.1 kept).2

/-- After a refresh, the parents of other declarations are those that the purge has left. -/
theorem kept_parents (keyed : store.Keyed) :
    after.parents.rows.filter (!after.owns stages.project.id ·.childId) =
      stages.called.parents.rows.filter (!after.owns stages.project.id ·.childId) := by
  obtain ⟨added, rows, owned, -⟩ := stages.parents_rows keyed
  have own : (added.map (after.link stages.project.id)).filter
      (!after.owns stages.project.id ·.childId) = [] := by
    rw [List.filter_eq_nil_iff]
    intro edge listed
    obtain ⟨old, member, rfl⟩ := List.mem_map.1 listed
    simp [(owned old member).2]
  rw [rows, List.filter_append, own, List.append_nil, List.filter_filter]
  simp only [Bool.and_self]

/-- The parents of the project are those that the refresh has stored, linked where a type fits. -/
theorem own_parents (keyed : store.Keyed) : ∃ added : List ParentRow,
    after.parentRowsOf stages.project.id = added.map (after.link stages.project.id) ∧
    (∀ edge ∈ added, edge.parentId = none ∧ after.owns stages.project.id edge.childId = true) ∧
    added.map ParentRow.key =
      ((allParents files stages.ids).filterMap ParentDraft.complete?).eraseDups := by
  obtain ⟨added, rows, owned, keys⟩ := stages.parents_rows keyed
  refine ⟨added, ?_, owned, keys⟩
  have others : (stages.called.parents.rows.filter
      (!after.owns stages.project.id ·.childId)).filter (after.owns stages.project.id ·.childId) = [] := by
    rw [List.filter_filter, List.filter_eq_nil_iff]
    simp
  rw [parentRowsOf, rows, List.filter_append, others, List.nil_append, List.filter_eq_self]
  intro edge listed
  obtain ⟨old, member, rfl⟩ := List.mem_map.1 listed
  rw [link_childId]
  exact (owned old member).2

end Refresh.Stages

end DeclGraph
