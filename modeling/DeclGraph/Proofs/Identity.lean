import Mathlib
import DeclGraph.Proofs.PurgedRows

/-! Which declarations the numbers of a store stand for, and what changes do to that. The next number
is above all that have been given, a number keeps its identity, and only a purge takes any away. -/
namespace DeclGraph

/-- Changing the row of one number leaves the others, and the changed one. -/
theorem Table.mem_map_one {ρ : Type} [Numbered ρ] {table : Table ρ} {old row : ρ} (change : ρ → ρ)
    (member : old ∈ table.rows) :
    row ∈ table.rows.map
        (fun other => if Numbered.id other = Numbered.id old then change other else other) ↔
      (row ∈ table.rows ∧ Numbered.id row ≠ Numbered.id old) ∨ row = change old := by
  rw [List.mem_map]
  constructor
  · rintro ⟨other, present, rfl⟩
    split
    next numbered =>
      rw [List.inj_on_of_nodup_map table.ids_nodup present member numbered]
      exact Or.inr rfl
    next apart => exact Or.inl ⟨present, apart⟩
  · rintro (⟨present, apart⟩ | rfl)
    · exact ⟨row, present, if_neg apart⟩
    · exact ⟨old, member, if_pos rfl⟩

def ParentRow.opened (id : Int) (key : Int × String × String) : ParentRow where
  id := id
  childId := key.1
  parentId := none
  symbol := key.2.1
  heritage := key.2.2

@[simp] theorem ParentRow.opened_key (id : Int) (key : Int × String × String) :
    (opened id key).key = key :=
  rfl

namespace Store
variable {store after : Store} {projectId generation id other : Int} {key : EntityKey}

def Identifies (store : Store) (id : Int) (key : EntityKey) : Prop :=
  ∃ row ∈ store.entities.rows, row.id = id ∧ row.key = key

theorem Identifies.lt_next (identifies : store.Identifies id key) : id < store.entities.next := by
  obtain ⟨row, member, rfl, -⟩ := identifies
  exact Int.lt_add_one_of_le (store.entities.bounded row member)

theorem Identifies.unique {key' : EntityKey} (first : store.Identifies id key)
    (second : store.Identifies id key') : key = key' := by
  obtain ⟨row, member, numbered, rfl⟩ := first
  obtain ⟨row', member', numbered', rfl⟩ := second
  rw [List.inj_on_of_nodup_map store.entities.ids_nodup member member' (numbered.trans numbered'.symm)]

theorem owns_iff_row : store.owns projectId id = true ↔
    ∃ row ∈ store.entities.rows, row.id = id ∧ row.projectId = projectId := by
  simp only [owns, Option.any_eq_true, Table.find?_eq_some_iff, beq_iff_eq, and_assoc]
  rfl

theorem owns_iff : store.owns projectId id = true ↔
    ∃ key, store.Identifies id key ∧ key.projectId = projectId := by
  rw [owns_iff_row]
  constructor
  · rintro ⟨row, member, numbered, owned⟩
    exact ⟨row.key, ⟨row, member, numbered, rfl⟩, owned⟩
  · rintro ⟨-, ⟨row, member, numbered, rfl⟩, owned⟩
    exact ⟨row, member, numbered, owned⟩

theorem owns_row {row : EntityRow} (member : row ∈ store.entities.rows) :
    store.owns row.projectId row.id = true :=
  owns_iff.2 ⟨row.key, ⟨row, member, rfl, rfl⟩, rfl⟩

/-- A declaration belongs to one project only. -/
theorem owner_unique {owner another : Int} (owned : store.owns owner id = true)
    (owned' : store.owns another id = true) : owner = another := by
  obtain ⟨key, stored, rfl⟩ := owns_iff.1 owned
  obtain ⟨key', stored', rfl⟩ := owns_iff.1 owned'
  rw [stored.unique stored']

theorem owns_congr (entities : after.entities = store.entities) :
    after.owns projectId = store.owns projectId := by
  funext id
  simp only [owns, entities]

theorem link_not_owned {edge : ParentRow} (foreign : ¬ store.owns projectId edge.childId = true) :
    store.link projectId edge = edge := by
  rw [link_eq, if_neg]
  simp [isOpen, foreign]

theorem putProject_frame {name rootPath : String} {project : Project}
    (done : store.putProject name rootPath = (project, after)) :
    after.entities = store.entities ∧ after.calls = store.calls ∧ after.parents = store.parents := by
  unfold putProject at done
  split at done <;> cases done <;> exact ⟨rfl, rfl, rfl⟩

theorem beginGeneration_frame (done : store.beginGeneration projectId = .ok (generation, after)) :
    after.entities = store.entities ∧ after.calls = store.calls ∧ after.parents = store.parents := by
  unfold beginGeneration at done
  split at done <;> cases done
  exact ⟨rfl, rfl, rfl⟩

theorem replaceCalls_frame {drafts : List CallDraft} {count : Nat}
    (done : store.replaceCalls projectId drafts = (count, after)) :
    after.projects = store.projects ∧ after.entities = store.entities ∧
      after.parents = store.parents := by
  cases done
  exact ⟨rfl, rfl, rfl⟩

theorem putEntity_frame {draft : EntityDraft}
    (done : store.putEntity projectId generation draft = (id, after)) :
    after.projects = store.projects ∧ after.calls = store.calls ∧ after.parents = store.parents := by
  unfold putEntity at done
  simp only at done
  split at done <;> cases done <;> exact ⟨rfl, rfl, rfl⟩

inductive AddStep (store : Store) (before : InsertReport) (draft : ParentDraft) :
    InsertReport → Store → Prop
  | lacking (complete : draft.complete? = none) :
      AddStep store before draft { before with dropped := before.dropped + 1 } store
  | known {key : Int × String × String} (complete : draft.complete? = some key)
      (stored : ∃ edge ∈ store.parents.rows, edge.key = key) :
      AddStep store before draft { before with duplicates := before.duplicates + 1 }
        { store with parents := store.parents.skip }
  | new {key : Int × String × String} (complete : draft.complete? = some key)
      (absent : ∀ edge ∈ store.parents.rows, edge.key ≠ key) :
      AddStep store before draft { before with inserted := before.inserted + 1 }
        { store with parents := store.parents.append (ParentRow.opened · key) }

theorem addParent_step {before report : InsertReport} {draft : ParentDraft}
    (done : store.addParent before draft = (report, after)) :
    AddStep store before draft report after := by
  unfold addParent at done
  split at done
  next complete =>
    cases done
    exact .lacking complete
  next childId symbol heritage complete =>
    split at done
    next stored =>
      cases done
      simp only [List.any_eq_true, beq_iff_eq] at stored
      exact .known complete stored
    next absent =>
      cases done
      simp only [List.any_eq_true, beq_iff_eq, not_exists, not_and] at absent
      exact .new complete absent

theorem addParent_frame {before report : InsertReport} {draft : ParentDraft}
    (done : store.addParent before draft = (report, after)) :
    after.projects = store.projects ∧ after.entities = store.entities ∧ after.calls = store.calls := by
  cases addParent_step done <;> exact ⟨rfl, rfl, rfl⟩

theorem linkParents_frame {report : LinkReport}
    (done : store.linkParents projectId = (report, after)) :
    after.projects = store.projects ∧ after.entities = store.entities ∧ after.calls = store.calls := by
  cases done
  exact ⟨rfl, rfl, rfl⟩

/-- Rows that are changed in place stand for what they stood for if they keep number and identity. -/
theorem identifies_of_modify {change : EntityRow → EntityRow}
    (changed : after.entities.rows = store.entities.rows.map change)
    (kept : ∀ row ∈ store.entities.rows, (change row).id = row.id ∧ (change row).key = row.key) :
    after.Identifies other key ↔ store.Identifies other key := by
  simp only [Identifies, changed, List.mem_map, exists_exists_and_eq_and]
  refine exists_congr fun row => and_congr_right fun present => ?_
  rw [(kept row present).1, (kept row present).2]

/-- Storing a declaration changes what one number stands for: its own, which is new or stood for the
same identity before. -/
theorem putEntity_identifies {draft : EntityDraft}
    (done : store.putEntity projectId generation draft = (id, after)) :
    ∃ own : EntityKey, (store.Identifies id own ∨ id = store.entities.next) ∧
      ∀ other key, after.Identifies other key ↔
        store.Identifies other key ∨ other = id ∧ key = own := by
  unfold putEntity at done
  simp only at done
  refine ⟨(EntityRow.ofDraft projectId generation draft 0).key, ?_⟩
  split at done
  next old found =>
    have hit := List.find?_some found
    have same := beq_iff_eq.1 hit
    have member := List.mem_of_find?_eq_some found
    cases done
    refine ⟨Or.inl ⟨old, member, rfl, same⟩, fun other key => ?_⟩
    have absorbed : other = old.id ∧ key = (EntityRow.ofDraft projectId generation draft 0).key →
        store.Identifies other key := by
      rintro ⟨rfl, rfl⟩
      exact ⟨old, member, rfl, same⟩
    rw [or_iff_left_of_imp absorbed]
    refine identifies_of_modify rfl fun row present => ?_
    -- The row that is overwritten is the only one of its number.
    split
    next numbered =>
      obtain rfl := List.inj_on_of_nodup_map store.entities.ids_nodup present member numbered
      exact ⟨rfl, same.symm⟩
    next => exact ⟨rfl, rfl⟩
  next =>
    cases done
    refine ⟨Or.inr rfl, fun other key => ?_⟩
    simp only [Identifies, Table.append, List.mem_append, List.mem_singleton, or_and_right, exists_or,
      exists_eq_left, eq_comm]
    exact Iff.rfl

theorem putEntity_identifies_mono {draft : EntityDraft}
    (done : store.putEntity projectId generation draft = (id, after))
    (stored : store.Identifies other key) : after.Identifies other key := by
  obtain ⟨own, -, identifies⟩ := putEntity_identifies done
  exact (identifies other key).2 (Or.inl stored)

theorem purgeStale_identifies {removed : Nat}
    (done : store.purgeStale projectId generation = (removed, after)) :
    after.Identifies other key → store.Identifies other key := by
  rintro ⟨row, member, numbered, keyed⟩
  exact ⟨row, ((purgeStale_purges done).mem_entities.1 member).1, numbered, keyed⟩

/-- The parents that a purge keeps are those of declarations it keeps, linked to such ones. -/
theorem purgeStale_keeps {removed : Nat} {edge : ParentRow}
    (done : store.purgeStale projectId generation = (removed, after))
    (member : edge ∈ after.parents.rows) : edge ∈ store.parents.rows ∧
      ∀ id, id = edge.childId ∨ edge.parentId = some id →
        ∀ key, store.Identifies id key → after.Identifies id key := by
  have purges := purgeStale_purges done
  obtain ⟨present, spared⟩ := purges.mem_parents.1 member
  refine ⟨present, ?_⟩
  rintro _ ends key ⟨row, stored, rfl, keyed⟩
  exact ⟨row, purges.keeps stored (spared row.id (ParentRow.mem_ends.2 ends)), rfl, keyed⟩

end Store

end DeclGraph
