import Mathlib
import DeclGraph.Proofs.History

/-! What a purge removes: the declarations of a project that stayed behind its generation, and with them every
call and parent that has one of them at an end. It does not matter which project the call or the other end
belongs to, and an end that is not known counts for nothing. -/
namespace DeclGraph

def CallRow.ends (call : CallRow) : List Int :=
  call.callerId :: call.calleeId.toList

def ParentRow.ends (edge : ParentRow) : List Int :=
  edge.childId :: edge.parentId.toList

theorem CallRow.mem_ends {call : CallRow} {id : Int} :
    id ∈ call.ends ↔ id = call.callerId ∨ call.calleeId = some id := by
  simp [ends]

theorem ParentRow.mem_ends {edge : ParentRow} {id : Int} :
    id ∈ edge.ends ↔ id = edge.childId ∨ edge.parentId = some id := by
  simp [ends]

def EntityRow.Outdated (projectId generation : Int) (row : EntityRow) : Prop :=
  row.projectId = projectId ∧ row.generation < generation

instance (projectId generation : Int) : DecidablePred (EntityRow.Outdated projectId generation) :=
  fun row => inferInstanceAs (Decidable (row.projectId = projectId ∧ row.generation < generation))

namespace Store

variable {store after : Store} {projectId generation id : Int} {removed : Nat}

def Doomed (store : Store) (projectId generation id : Int) : Prop :=
  ∃ row ∈ store.entities.rows, row.id = id ∧ row.Outdated projectId generation

instance : Decidable (store.Doomed projectId generation id) :=
  inferInstanceAs
    (Decidable (∃ row ∈ store.entities.rows, row.id = id ∧ row.Outdated projectId generation))

structure Purges (store : Store) (projectId generation : Int) (removed : Nat) (after : Store) :
    Prop where
  counted : removed = store.entities.rows.countP fun row => row.Outdated projectId generation
  entities : after.entities.rows =
    store.entities.rows.filter fun row => ¬ row.Outdated projectId generation
  calls : after.calls.rows =
    store.calls.rows.filter fun call => ∀ id ∈ call.ends, ¬ store.Doomed projectId generation id
  parents : after.parents.rows =
    store.parents.rows.filter fun edge => ∀ id ∈ edge.ends, ¬ store.Doomed projectId generation id
  projects : after.projects = store.projects
  issued : after.entities.issued = store.entities.issued ∧
    after.calls.issued = store.calls.issued ∧ after.parents.issued = store.parents.issued

theorem isStale_eq (row : EntityRow) :
    isStale projectId generation row = decide (row.Outdated projectId generation) := by
  rw [Bool.eq_iff_iff, decide_eq_true_eq]
  simp [isStale, EntityRow.Outdated]

theorem mem_staleIds_iff : id ∈ store.staleIds projectId generation ↔
    store.Doomed projectId generation id := by
  simp only [staleIds, List.mem_map, List.mem_filter, isStale_eq, decide_eq_true_eq, Doomed]
  constructor
  · rintro ⟨row, ⟨member, outdated⟩, numbered⟩
    exact ⟨row, member, numbered, outdated⟩
  · rintro ⟨row, member, numbered, outdated⟩
    exact ⟨row, ⟨member, outdated⟩, numbered⟩

/-- The test on the ends of a row, for a call as for a parent. -/
theorem refersToStale_eq (source : Int) (target : Option Int) :
    (!store.refersToStale projectId generation source target) =
      decide (∀ id ∈ source :: target.toList, ¬ store.Doomed projectId generation id) := by
  cases target with
  | none => simp only [refersToStale, List.contains_eq_mem, mem_staleIds_iff]; simp
  | some id => simp only [refersToStale, List.contains_eq_mem, mem_staleIds_iff, Option.any_some]; simp

/-- The deletions do not get in each other's way: all of them go by the declarations as they were. -/
theorem purgeStale_eq (store : Store) (projectId generation : Int) :
    store.purgeStale projectId generation =
      ((store.entities.rows.filter (isStale projectId generation)).length,
        { store with
          entities := (store.purgeEntities projectId generation).2.entities
          calls := (store.purgeCalls projectId generation).calls
          parents := (store.purgeParents projectId generation).parents }) :=
  rfl

theorem purgeStale_purges (done : store.purgeStale projectId generation = (removed, after)) :
    store.Purges projectId generation removed after := by
  rw [purgeStale_eq] at done
  cases done
  constructor
  · rw [← List.countP_eq_length_filter]
    exact congrArg (List.countP · _) (funext isStale_eq)
  · refine List.filter_congr fun row _ => ?_
    rw [isStale_eq, decide_not]
  · exact List.filter_congr fun call _ => refersToStale_eq call.callerId call.calleeId
  · exact List.filter_congr fun edge _ => refersToStale_eq edge.childId edge.parentId
  · rfl
  · exact ⟨rfl, rfl, rfl⟩

namespace Purges

variable (purges : store.Purges projectId generation removed after)
include purges

theorem mem_entities {row : EntityRow} : row ∈ after.entities.rows ↔
    row ∈ store.entities.rows ∧ ¬ row.Outdated projectId generation := by
  rw [purges.entities, List.mem_filter, decide_eq_true_eq]

theorem mem_calls {call : CallRow} : call ∈ after.calls.rows ↔
    call ∈ store.calls.rows ∧ ∀ id ∈ call.ends, ¬ store.Doomed projectId generation id := by
  rw [purges.calls, List.mem_filter, decide_eq_true_eq]

theorem mem_parents {edge : ParentRow} : edge ∈ after.parents.rows ↔
    edge ∈ store.parents.rows ∧ ∀ id ∈ edge.ends, ¬ store.Doomed projectId generation id := by
  rw [purges.parents, List.mem_filter, decide_eq_true_eq]

/-- What is not doomed keeps its declaration. -/
theorem keeps {row : EntityRow} (member : row ∈ store.entities.rows)
    (spared : ¬ store.Doomed projectId generation row.id) : row ∈ after.entities.rows :=
  purges.mem_entities.2 ⟨member, fun outdated => spared ⟨row, member, rfl, outdated⟩⟩

end Purges

/-- Every end of a call or a parent that is known is a stored declaration. -/
def Anchored (store : Store) : Prop :=
  (∀ call ∈ store.calls.rows, ∀ id ∈ call.ends, store.Holds id) ∧
    ∀ edge ∈ store.parents.rows, ∀ id ∈ edge.ends, store.Holds id

instance : Decidable store.Anchored :=
  inferInstanceAs (Decidable
    ((∀ call ∈ store.calls.rows, ∀ id ∈ call.ends, ∃ row ∈ store.entities.rows, row.id = id) ∧
      ∀ edge ∈ store.parents.rows, ∀ id ∈ edge.ends, ∃ row ∈ store.entities.rows, row.id = id))

theorem Purges.anchored (purges : store.Purges projectId generation removed after)
    (anchored : store.Anchored) : after.Anchored := by
  have kept : ∀ id, store.Holds id → ¬ store.Doomed projectId generation id → after.Holds id := by
    rintro id ⟨row, member, rfl⟩ spared
    exact ⟨row, purges.keeps member spared, rfl⟩
  constructor
  · intro call member id listed
    obtain ⟨present, spared⟩ := purges.mem_calls.1 member
    exact kept id (anchored.1 call present id listed) (spared id listed)
  · intro edge member id listed
    obtain ⟨present, spared⟩ := purges.mem_parents.1 member
    exact kept id (anchored.2 edge present id listed) (spared id listed)

theorem purgeStale_current
    (current : ∀ row ∈ store.entities.rows, ¬ row.Outdated projectId generation) :
    store.purgeStale projectId generation = (0, store) := by
  rcases done : store.purgeStale projectId generation with ⟨removed, after⟩
  have purges := purgeStale_purges done
  obtain ⟨entities, calls, parents⟩ := purges.issued
  have nothing : ∀ id, ¬ store.Doomed projectId generation id := by
    rintro id ⟨row, member, -, outdated⟩
    exact current row member outdated
  have none : removed = 0 := by
    rw [purges.counted, List.countP_eq_zero]
    simpa using current
  have same : after = store := by
    have := purges.projects
    have := Table.eq_of_rows (purges.entities.trans (List.filter_eq_self.2 (by simpa using current)))
      entities
    have := Table.eq_of_rows (purges.calls.trans (List.filter_eq_self.2 (by simp [nothing]))) calls
    have := Table.eq_of_rows (purges.parents.trans (List.filter_eq_self.2 (by simp [nothing]))) parents
    cases after
    cases store
    simp_all
  rw [none, same]

theorem purgeStale_nothing (done : store.purgeStale projectId generation = (0, after)) :
    after = store := by
  have none := (purgeStale_purges done).counted
  rw [eq_comm, List.countP_eq_zero] at none
  have same := done.symm.trans (purgeStale_current (by simpa using none))
  exact congrArg Prod.snd same

/-- A purge counts and removes the outdated declarations of the project, removes the calls and parents with
one of them at an end, and leaves all other rows as they are. It leaves no loose ends if there were none,
and a purge for the same or an earlier generation finds nothing left to remove. -/
theorem purge_removes_the_outdated (store : Store) (projectId generation : Int) :
    ∃ removed after, store.purgeStale projectId generation = (removed, after) ∧
      store.Purges projectId generation removed after ∧
      (store.Anchored → after.Anchored) ∧
      ∀ earlier ≤ generation, after.purgeStale projectId earlier = (0, after) := by
  rcases done : store.purgeStale projectId generation with ⟨removed, after⟩
  have purges := purgeStale_purges done
  refine ⟨removed, after, rfl, purges, purges.anchored, fun earlier before => ?_⟩
  refine purgeStale_current fun row member outdated => ?_
  exact (purges.mem_entities.1 member).2 ⟨outdated.1, outdated.2.trans_le before⟩

/-! Two projects share a yard. The shed of the first is not met again when its barn is. With it go a call from
the other project and the barn's link to it, while calls and parents without a known end stay. -/

def buildingDraft (symbol : String) : EntityDraft :=
  ⟨.ruby, symbol, .cls, "yard.rb", 1, 9, none⟩

def yardStore : Store :=
  empty.replay
    [.putEntities 1 1 [buildingDraft "Shed", buildingDraft "Barn"], .putEntity 1 2 (buildingDraft "Barn"),
      .putEntity 2 1 (buildingDraft "Farm"),
      .replaceCalls 1 [⟨2, none, "puts", 3, none⟩, ⟨2, some 4, "plough", 4, none⟩],
      .replaceCalls 2 [⟨4, some 1, "open", 5, none⟩, ⟨4, some 2, "open", 6, none⟩],
      .addParents [⟨some 2, some "Shed", some .extension⟩, ⟨some 4, some "Shed", some .mixin⟩],
      .linkParents 1]

theorem yard_purged : yardStore.Anchored ∧ ∃ after, yardStore.purgeStale 1 2 = (1, after) ∧
    after.entities.rows.map (·.id) = [2, 4] ∧ after.calls.rows.map (·.id) = [1, 2, 4] ∧
    after.parents.rows.map (·.id) = [2] ∧ after.Anchored ∧ after.purgeStale 1 1 = (0, after) := by
  have anchored : yardStore.Anchored := by decide +kernel
  obtain ⟨removed, after, done, purges, keeps, again⟩ := purge_removes_the_outdated yardStore 1 2
  have one : removed = 1 := purges.counted.trans (by decide +kernel)
  have entities : after.entities.rows.map (·.id) = [2, 4] :=
    (congrArg (List.map (·.id)) purges.entities).trans (by decide +kernel)
  have calls : after.calls.rows.map (·.id) = [1, 2, 4] :=
    (congrArg (List.map (·.id)) purges.calls).trans (by decide +kernel)
  have parents : after.parents.rows.map (·.id) = [2] :=
    (congrArg (List.map (·.id)) purges.parents).trans (by decide +kernel)
  exact ⟨anchored, after, one ▸ done, entities, calls, parents, keeps anchored, again 1 (by decide)⟩

end Store

end DeclGraph
