import Mathlib
import DeclGraph.Proofs.RefreshedEntities

/-! Stores that are only ever refreshed. Their declarations belong to stored projects that have come at
least as far as they have, and their calls stay inside one project. So a refresh of one project leaves
the declarations and the calls of all others as they were. -/
namespace DeclGraph

open Refresh Extract

structure RefreshRequest where
  name : String
  rootPath : String
  scanned : Nat
  files : List FileFacts

namespace Store

variable {store after : Store} {name rootPath : String} {project other : Project} {projectId : Int}

def refreshAll (store : Store) (requests : List RefreshRequest) : Store :=
  store.replay (requests.map fun request =>
    .refresh request.name request.rootPath request.scanned request.files)

theorem refreshAll_append (first second : List RefreshRequest) :
    store.refreshAll (first ++ second) = (store.refreshAll first).refreshAll second := by
  simp only [refreshAll, replay, List.map_append, List.foldl_append]

theorem refreshAll_cons {request : RefreshRequest} {report : RefreshReport}
    (success : store.refresh request.name request.rootPath request.scanned request.files =
      .ok (report, after)) (rest : List RefreshRequest) :
    store.refreshAll (request :: rest) = after.refreshAll rest := by
  simp only [refreshAll, replay, List.map_cons, List.foldl_cons, apply, success]

structure Orderly (store : Store) : Prop where
  keyed : store.Keyed
  titled : ∀ a ∈ store.projects.rows, ∀ b ∈ store.projects.rows, a.name = b.name → a = b
  housed : ∀ row ∈ store.entities.rows, ∃ project ∈ store.projects.rows,
    project.id = row.projectId ∧ row.generation ≤ project.generation
  inside : ∀ call ∈ store.calls.rows, store.owns call.projectId call.callerId = true ∧
    ∀ callee, call.calleeId = some callee → store.owns call.projectId callee = true

theorem putProject_known (done : store.putProject name rootPath = (project, after))
    (member : other ∈ store.projects.rows) (same : other.id = project.id) :
    other.name = name ∧ other.generation = project.generation := by
  obtain ⟨rfl, ⟨old, present, rfl⟩ | ⟨fresh, -, -⟩⟩ := putProject_cases done
  · obtain rfl := List.inj_on_of_nodup_map store.projects.ids_nodup member present same
    exact ⟨rfl, rfl⟩
  · have bounded : other.id ≤ store.projects.issued := store.projects.bounded other member
    rw [same, fresh] at bounded
    exact absurd (Int.lt_add_one_of_le bounded) (lt_irrefl _)

theorem Orderly.putProject_apart (orderly : store.Orderly)
    (done : store.putProject name rootPath = (project, after)) (member : other ∈ store.projects.rows) :
    other.id = project.id ↔ other.name = name := by
  refine ⟨fun same => (putProject_known done member same).1, fun same => ?_⟩
  obtain ⟨rfl, ⟨old, present, rfl⟩ | ⟨-, -, absent⟩⟩ := putProject_cases done
  · rw [orderly.titled other member old present same]
  · exact absurd same (absent other member)

theorem Orderly.current (orderly : store.Orderly)
    (done : store.putProject name rootPath = (project, after)) : store.Current project := by
  intro row member owned
  obtain ⟨owner, present, same, reached⟩ := orderly.housed row member
  rw [← (putProject_known done present (same.trans owned)).2]
  exact reached

theorem foldl_append_calls (drafts : List CallDraft) (table : Table CallRow) :
    ∃ added, (drafts.foldl (fun calls draft => calls.append (CallRow.ofDraft projectId draft))
        table).rows = table.rows ++ added ∧
      List.Forall₂ (fun draft row => row = CallRow.ofDraft projectId draft row.id) drafts added := by
  induction drafts generalizing table with
  | nil => exact ⟨[], (List.append_nil _).symm, .nil⟩
  | cons draft rest ih =>
      obtain ⟨added, rows, written⟩ := ih (table.append (CallRow.ofDraft projectId draft))
      refine ⟨CallRow.ofDraft projectId draft table.next :: added, ?_, .cons rfl written⟩
      rw [List.foldl_cons, rows]
      exact List.append_assoc _ _ _

/-- The calls of other projects stay, and those of the project follow them in the order of the drafts. -/
theorem replaceCalls_rows {drafts : List CallDraft} {count : Nat}
    (done : store.replaceCalls projectId drafts = (count, after)) :
    ∃ added, after.calls.rows = store.calls.rows.filter (·.projectId != projectId) ++ added ∧
      List.Forall₂ (fun draft row => row = CallRow.ofDraft projectId draft row.id) drafts added := by
  cases done
  exact foldl_append_calls drafts _

theorem owns_apart {owner another id : Int} (owned : store.owns owner id = true)
    (apart : owner ≠ another) : store.owns another id = false := by
  rw [← Bool.not_eq_true]
  exact fun taken => apart (owner_unique owned taken)

theorem not_doomed_of_foreign {generation id : Int} (foreign : store.owns projectId id = false) :
    ¬ store.Doomed projectId generation id := by
  rintro ⟨row, member, rfl, rfl, -⟩
  rw [owns_row member] at foreign
  cases foreign

/-- What leads from other projects to other projects has no end that a purge removes. -/
theorem purgeStale_call {generation : Int} {removed : Nat} {call : CallRow}
    (done : store.purgeStale projectId generation = (removed, after))
    (apart : ∀ id, id = call.callerId ∨ call.calleeId = some id → store.owns projectId id = false) :
    call ∈ after.calls.rows ↔ call ∈ store.calls.rows := by
  refine (purgeStale_purges done).mem_calls.trans (and_iff_left_of_imp fun _ id listed => ?_)
  exact not_doomed_of_foreign (apart id (CallRow.mem_ends.1 listed))

theorem purgeStale_parent {generation : Int} {removed : Nat} {edge : ParentRow}
    (done : store.purgeStale projectId generation = (removed, after))
    (apart : ∀ id, id = edge.childId ∨ edge.parentId = some id → store.owns projectId id = false) :
    edge ∈ after.parents.rows ↔ edge ∈ store.parents.rows := by
  refine (purgeStale_purges done).mem_parents.trans (and_iff_left_of_imp fun _ id listed => ?_)
  exact not_doomed_of_foreign (apart id (ParentRow.mem_ends.1 listed))

end Store

namespace Refresh

variable {files : List FileFacts} {ids : List Int}

theorem lookup_mem {symbol filename : String} {kinds : List EntityKind} {drafts : List EntityDraft}
    {id : Int} (found : lookup (targets drafts ids) symbol filename kinds = some id) : id ∈ ids := by
  obtain ⟨target, chosen, rfl⟩ := Option.map_eq_some_iff.1 found
  have accepted : target ∈ (targets drafts ids).filter fun target =>
      target.symbol == symbol && kinds.contains target.kind := by
    rcases Option.or_eq_some_iff.1 chosen with first | ⟨-, first⟩
    · exact List.mem_of_find?_eq_some first
    · exact List.mem_of_head? first
  have listed := (List.mem_filter.1 accepted).1
  rw [targets, List.mem_mergeSort] at listed
  obtain ⟨⟨draft, id⟩, pair, rfl⟩ := List.mem_map.1 listed
  exact (List.of_mem_zip pair).2

/-- Both ends of a call are numbers that the refresh has given. -/
theorem allCalls_ends {draft : CallDraft} (member : draft ∈ allCalls files ids) :
    draft.callerId ∈ ids ∧ ∀ callee, draft.calleeId = some callee → callee ∈ ids := by
  obtain ⟨⟨file, offset⟩, -, member⟩ := List.mem_flatMap.1 member
  obtain ⟨call, -, placed⟩ := List.mem_filterMap.1 member
  obtain ⟨caller, here, rfl⟩ := Option.map_eq_some_iff.1 placed
  exact ⟨List.mem_of_getElem? here, fun callee found => lookup_mem found⟩

end Refresh

namespace Refresh.Stages

open Store

variable {store after : Store} {name rootPath : String} {scanned : Nat} {files : List FileFacts}
  {report : RefreshReport} {row : EntityRow} {project : Project} {id owner : Int}
  (stages : Stages store name rootPath scanned files report after)
include stages

theorem project_named : stages.project.name = name :=
  (putProject_cases stages.moves).1

theorem after_projects : after.projects = stages.begun.projects := by
  have purged : stages.purged.projects = stages.stored.projects := by
    rw [← congrArg (fun result => result.2.projects) stages.purges]
    rfl
  rw [(linkParents_frame stages.links).1, (replaceParents_frame stages.names).1,
    (replaceCalls_frame stages.calls).1, purged]
  exact (putEntities_frame stages.stores).1

theorem mem_projects : project ∈ after.projects.rows ↔
    (project ∈ store.projects.rows ∧ project.id ≠ stages.project.id) ∨
      project = { stages.project with generation := report.generation } := by
  rw [stages.after_projects, stages.project_counted.2, putProject_mem stages.moves]
  constructor
  · rintro (⟨⟨old, -⟩ | rfl, apart⟩ | counted)
    · exact Or.inl ⟨old, apart⟩
    · exact absurd rfl apart
    · exact Or.inr counted
  · rintro (⟨old, apart⟩ | counted)
    · exact Or.inl ⟨Or.inl ⟨old, apart⟩, apart⟩
    · exact Or.inr counted

theorem foreign (keyed : store.Keyed) (apart : row.projectId ≠ stages.project.id) :
    row ∈ after.entities.rows ↔ row ∈ store.entities.rows := by
  rw [stages.mem_after]
  constructor
  · rintro ⟨member, -⟩
    rcases stages.origin keyed member with ⟨old, -⟩ | ⟨draft, -, written⟩
    · exact old
    · rw [written] at apart
      exact absurd rfl apart
  · intro member
    rw [← stages.begun_entities] at member
    refine ⟨putEntities_keeps (stages.begun_keyed keyed) stages.stores member ?_,
      fun owned => absurd owned apart⟩
    intro draft _ same
    exact apart (congrArg EntityKey.projectId same)

theorem foreign_entities (keyed : store.Keyed) (apart : owner ≠ stages.project.id) :
    after.entities.rows.filter (·.projectId == owner) =
      store.entities.rows.filter (·.projectId == owner) := by
  refine rows_eq_of_mem_iff (after.entities.ordered.filter _) (store.entities.ordered.filter _) ?_
  intro row
  simp only [List.mem_filter, beq_iff_eq]
  refine and_congr_left fun owned => stages.foreign keyed ?_
  rw [owned]
  exact apart

theorem owns_number (keyed : store.Keyed) (member : id ∈ stages.ids) :
    after.owns stages.project.id id = true := by
  obtain ⟨draft, -, stands⟩ := exists_left_of_mem (stages.numbers keyed) member
  exact owns_iff.2 ⟨_, stands, rfl⟩

theorem owns_foreign (keyed : store.Keyed) (apart : owner ≠ stages.project.id) :
    after.owns owner id = true ↔ store.owns owner id = true := by
  simp only [owns_iff, Identifies]
  constructor
  · rintro ⟨-, ⟨row, member, numbered, rfl⟩, rfl⟩
    exact ⟨row.key, ⟨row, (stages.foreign keyed apart).1 member, numbered, rfl⟩, rfl⟩
  · rintro ⟨-, ⟨row, member, numbered, rfl⟩, rfl⟩
    exact ⟨row.key, ⟨row, (stages.foreign keyed apart).2 member, numbered, rfl⟩, rfl⟩

theorem stored_owns (owned : store.owns owner id = true) : stages.stored.owns owner id = true := by
  obtain ⟨key, ⟨row, member, numbered, keyed⟩, same⟩ := owns_iff.1 owned
  rw [← stages.begun_entities] at member
  exact owns_iff.2 ⟨key, putEntities_identifies_mono stages.stores ⟨row, member, numbered, keyed⟩, same⟩

theorem after_calls : after.calls = stages.called.calls := by
  rw [(linkParents_frame stages.links).2.2, (replaceParents_frame stages.names).2.2]

/-- The calls after a refresh: what the purge left of other projects' calls, then the calls of the
project in the order in which they were extracted. -/
theorem calls_rows : ∃ added,
    after.calls.rows =
      stages.purged.calls.rows.filter (·.projectId != stages.project.id) ++ added ∧
    List.Forall₂ (fun draft row => row = CallRow.ofDraft stages.project.id draft row.id)
      (allCalls files stages.ids) added := by
  rw [stages.after_calls]
  exact replaceCalls_rows stages.calls

theorem stored_calls : stages.stored.calls = store.calls :=
  (putEntities_frame stages.stores).2.1.trans
    ((beginGeneration_frame stages.begins).2.1.trans (putProject_frame stages.moves).2.1)

theorem foreign_call {call : CallRow} (orderly : store.Orderly)
    (apart : call.projectId ≠ stages.project.id) :
    call ∈ after.calls.rows ↔ call ∈ store.calls.rows := by
  obtain ⟨added, rows, written⟩ := stages.calls_rows
  have others : call ∈ after.calls.rows ↔ call ∈ stages.purged.calls.rows := by
    rw [rows, List.mem_append, List.mem_filter]
    constructor
    · rintro (⟨member, -⟩ | new)
      · exact member
      · obtain ⟨draft, -, row⟩ := exists_left_of_mem written new
        exact absurd (congrArg CallRow.projectId row) apart
    · exact fun member => Or.inl ⟨member, bne_iff_ne.2 apart⟩
  rw [others]
  constructor
  · intro member
    rw [← stages.stored_calls]
    have kept := congrArg (fun result => result.2.calls.rows) stages.purges
    rw [← show _ = stages.purged.calls.rows from kept] at member
    exact (List.mem_filter.1 member).1
  · intro member
    refine (purgeStale_call stages.purges fun id ends => ?_).2 (stages.stored_calls ▸ member)
    -- The ends of the call belong to its own project, so not to the one that is purged.
    obtain ⟨caller, callee⟩ := orderly.inside call member
    have owned : store.owns call.projectId id = true := by
      rcases ends with rfl | known
      · exact caller
      · exact callee id known
    exact owns_apart (stages.stored_owns owned) apart

theorem foreign_calls (orderly : store.Orderly) (apart : owner ≠ stages.project.id) :
    after.calls.rows.filter (·.projectId == owner) =
      store.calls.rows.filter (·.projectId == owner) := by
  refine rows_eq_of_mem_iff (after.calls.ordered.filter _) (store.calls.ordered.filter _) ?_
  intro call
  simp only [List.mem_filter, beq_iff_eq]
  refine and_congr_left fun owned => stages.foreign_call orderly ?_
  rw [owned]
  exact apart

theorem orderly (before : store.Orderly) : after.Orderly where
  keyed := stages.after_keyed before.keyed
  titled := by
    intro a first b second same
    rcases stages.mem_projects.1 first with ⟨old, apart⟩ | rfl
    · rcases stages.mem_projects.1 second with ⟨old', -⟩ | rfl
      · exact before.titled a old b old' same
      · rw [stages.project_named] at same
        exact absurd ((before.putProject_apart stages.moves old).2 same) apart
    · rcases stages.mem_projects.1 second with ⟨old', apart⟩ | rfl
      · rw [stages.project_named] at same
        exact absurd ((before.putProject_apart stages.moves old').2 same.symm) apart
      · rfl
  housed := by
    intro row member
    by_cases owned : row.projectId = stages.project.id
    · obtain ⟨draft, -, written⟩ := stages.written before.keyed (before.current stages.moves) member owned
      refine ⟨_, stages.mem_projects.2 (Or.inr rfl), owned.symm, ?_⟩
      rw [written]
      exact le_refl _
    · obtain ⟨project, present, same, reached⟩ :=
        before.housed row ((stages.foreign before.keyed owned).1 member)
      exact ⟨project, stages.mem_projects.2 (Or.inl ⟨present, same ▸ owned⟩), same, reached⟩
  inside := by
    intro call member
    by_cases owned : call.projectId = stages.project.id
    · obtain ⟨added, rows, written⟩ := stages.calls_rows
      rw [rows, List.mem_append, List.mem_filter] at member
      rcases member with ⟨-, apart⟩ | new
      · exact absurd owned (bne_iff_ne.1 apart)
      · obtain ⟨draft, pair, row⟩ := exists_left_of_mem written new
        obtain ⟨caller, callee⟩ := allCalls_ends (List.of_mem_zip pair).1
        rw [owned]
        constructor
        · rw [congrArg CallRow.callerId row]
          exact stages.owns_number before.keyed caller
        · intro id known
          exact stages.owns_number before.keyed
            (callee id ((congrArg CallRow.calleeId row).symm.trans known))
    · obtain ⟨caller, callee⟩ := before.inside call ((stages.foreign_call before owned).1 member)
      exact ⟨(stages.owns_foreign before.keyed owned).2 caller,
        fun id known => (stages.owns_foreign before.keyed owned).2 (callee id known)⟩

end Refresh.Stages

namespace Store

variable {store : Store} {project : Project}

theorem Orderly.refreshAll (orderly : store.Orderly) (requests : List RefreshRequest) :
    (store.refreshAll requests).Orderly := by
  induction requests generalizing store with
  | nil => exact orderly
  | cons request rest ih =>
      obtain ⟨report, after, success⟩ :=
        refresh_succeeds store request.name request.rootPath request.scanned request.files
      obtain ⟨stages⟩ := refresh_stages success
      rw [refreshAll_cons success]
      exact ih (stages.orderly orderly)

theorem empty_orderly : empty.Orderly where
  keyed := by simp [Keyed, empty]
  titled := by simp [empty]
  housed := by simp [empty]
  inside := by simp [empty]

theorem Orderly.project?_eq (orderly : store.Orderly) (stored : project ∈ store.projects.rows) :
    store.project? project.name = some project := by
  cases found : store.project? project.name with
  | none => exact absurd (beq_self_eq_true _) (List.find?_eq_none.1 found project stored)
  | some first =>
      have named := List.find?_some found
      rw [orderly.titled first (List.mem_of_find?_eq_some found) project stored (beq_iff_eq.1 named)]

/-- Refreshes of other projects leave a project, and its declarations and calls in their order. -/
theorem Orderly.refreshAll_others (orderly : store.Orderly) (stored : project ∈ store.projects.rows)
    {requests : List RefreshRequest} (apart : ∀ request ∈ requests, request.name ≠ project.name) :
    project ∈ (store.refreshAll requests).projects.rows ∧
      (store.refreshAll requests).entities.rows.filter (·.projectId == project.id) =
        store.entities.rows.filter (·.projectId == project.id) ∧
      (store.refreshAll requests).calls.rows.filter (·.projectId == project.id) =
        store.calls.rows.filter (·.projectId == project.id) := by
  induction requests generalizing store with
  | nil => exact ⟨stored, rfl, rfl⟩
  | cons request rest ih =>
      obtain ⟨report, after, success⟩ :=
        refresh_succeeds store request.name request.rootPath request.scanned request.files
      obtain ⟨stages⟩ := refresh_stages success
      -- The refreshed project has another name, hence another number.
      have different : project.id ≠ stages.project.id := by
        intro same
        exact apart request List.mem_cons_self ((orderly.putProject_apart stages.moves stored).1 same).symm
      obtain ⟨kept, entities, calls⟩ := ih (stages.orderly orderly)
        (stages.mem_projects.2 (Or.inl ⟨stored, different⟩))
        fun later member => apart later (List.mem_cons_of_mem request member)
      rw [refreshAll_cons success, entities, calls]
      exact ⟨kept, stages.foreign_entities orderly.keyed different,
        stages.foreign_calls orderly different⟩

end Store

end DeclGraph
