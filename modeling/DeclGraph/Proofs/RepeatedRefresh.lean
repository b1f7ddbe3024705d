import Mathlib
import DeclGraph.Proofs.SameContent
import DeclGraph.Proofs.StoredParents

/-! Refreshing what has not changed. A second refresh goes other ways than the first: it overwrites
declarations instead of adding them, it purges none, and it takes new numbers for all calls and parents.
It gives every definition the number it has, so it looks up the same callees and parents, and it leaves
the same content behind. -/
namespace DeclGraph

open Refresh Extract

namespace Refresh.Stages

open Store

variable {store after : Store} {name rootPath : String} {scanned : Nat} {files : List FileFacts}
  {report : RefreshReport} {draft : EntityDraft} {id : Int}
  (stages : Stages store name rootPath scanned files report after)
include stages

theorem kept_calls : after.calls.rows.filter (·.projectId != stages.project.id) =
    stages.purged.calls.rows.filter (·.projectId != stages.project.id) := by
  obtain ⟨added, rows, written⟩ := stages.calls_rows
  have own : added.filter (·.projectId != stages.project.id) = [] := by
    rw [List.filter_eq_nil_iff]
    intro row listed
    obtain ⟨draft, -, same⟩ := exists_left_of_mem written listed
    simp [congrArg CallRow.projectId same, CallRow.ofDraft]
  rw [rows, List.filter_append, own, List.append_nil, List.filter_filter]
  simp only [Bool.and_self]

theorem calls_unnumbered : after.calls.rows.map CallRow.unnumbered =
    (stages.purged.calls.rows.filter (·.projectId != stages.project.id)).map CallRow.unnumbered ++
      (allCalls files stages.ids).map (CallRow.ofDraft stages.project.id · 0) := by
  obtain ⟨added, rows, written⟩ := stages.calls_rows
  have drawn : added.map CallRow.unnumbered =
      (allCalls files stages.ids).map (CallRow.ofDraft stages.project.id · 0) := by
    rw [← List.forall₂_eq_eq_eq, List.forall₂_map_left_iff, List.forall₂_map_right_iff]
    refine written.flip.imp fun row draft same => ?_
    rw [same]
    rfl
  rw [rows, List.map_append, drawn]

variable {again : Store} {second : RefreshReport}
  (next : Stages after name rootPath scanned files second again)
include next

theorem again_project (orderly : store.Orderly) :
    next.project.id = stages.project.id ∧ next.project.generation = report.generation := by
  have stored : { stages.project with generation := report.generation } ∈ after.projects.rows :=
    stages.mem_projects.2 (Or.inr rfl)
  have same := ((stages.orderly orderly).putProject_apart next.moves stored).2 stages.project_named
  exact ⟨same.symm, (putProject_known next.moves stored same).2.symm⟩

theorem again_identifies (orderly : store.Orderly) (member : draft ∈ drafts files) :
    again.Identifies id (draft.key stages.project.id) ↔
      after.Identifies id (draft.key stages.project.id) := by
  have keyed := stages.after_keyed orderly.keyed
  have kept : ∀ {number}, after.Identifies number (draft.key stages.project.id) →
      again.Identifies number (draft.key stages.project.id) := by
    intro number stands
    rw [← (stages.again_project next orderly).1] at stands ⊢
    exact next.keeps_number keyed member stands
  constructor
  · intro stands
    obtain ⟨number, stands'⟩ := stages.numbered orderly.keyed member
    rw [(next.after_keyed keyed).number_eq stands (kept stands')]
    exact stands'
  · exact kept

theorem again_ids (orderly : store.Orderly) : next.ids = stages.ids := by
  have keyed := stages.after_keyed orderly.keyed
  -- Both refreshes number the same drafts, and each identity has one number.
  refine eq_of_forall₂ (next.numbers keyed) (stages.numbers orderly.keyed) ?_
  intro draft member number number' stands stands'
  rw [(stages.again_project next orderly).1, stages.again_identifies next orderly member] at stands
  exact keyed.number_eq stands stands'

theorem again_removed (orderly : store.Orderly) : second.staleEntitiesRemoved = 0 := by
  have after_orderly := stages.orderly orderly
  rw [next.removed_eq after_orderly.keyed (after_orderly.current next.moves),
    (stages.again_project next orderly).1]
  convert Set.ncard_empty EntityKey
  rw [Set.eq_empty_iff_forall_notMem]
  rintro key ⟨⟨id, row, member, -, rfl⟩, owned, apart⟩
  -- Whatever the project has was written by a draft, and the drafts are the same.
  obtain ⟨draft, last, written⟩ :=
    stages.written orderly.keyed (orderly.current stages.moves) member owned
  refine apart draft (lastDrafts_subset last) ?_
  rw [written]
  rfl

theorem again_entities (orderly : store.Orderly) :
    UpTo EntityRow.undated after.entities.rows again.entities.rows := by
  have keyed := stages.after_keyed orderly.keyed
  have current := orderly.current stages.moves
  have current' := (stages.orderly orderly).current next.moves
  have project := (stages.again_project next orderly).1
  refine rows_eq_of_mem_iff (List.pairwise_map.2 after.entities.ordered)
    (List.pairwise_map.2 again.entities.ordered) ?_
  intro row
  simp only [List.mem_map]
  constructor
  · rintro ⟨row, member, rfl⟩
    by_cases owned : row.projectId = stages.project.id
    · obtain ⟨draft, last, written⟩ := stages.written orderly.keyed current member owned
      have stands : after.Identifies row.id (draft.key stages.project.id) :=
        ⟨row, member, rfl, by rw [written]; rfl⟩
      rw [← stages.again_identifies next orderly (lastDrafts_subset last), ← project] at stands
      refine ⟨_, next.last_written keyed current' last stands, ?_⟩
      rw [written, project]
      rfl
    · exact ⟨row, (next.foreign keyed (project ▸ owned)).2 member, rfl⟩
  · rintro ⟨row, member, rfl⟩
    by_cases owned : row.projectId = stages.project.id
    · obtain ⟨draft, last, written⟩ := next.written keyed current' member (project ▸ owned)
      have stands : again.Identifies row.id (draft.key next.project.id) :=
        ⟨row, member, rfl, by rw [written]; rfl⟩
      rw [project, stages.again_identifies next orderly (lastDrafts_subset last)] at stands
      refine ⟨_, stages.last_written orderly.keyed current last stands, ?_⟩
      rw [written, project]
      rfl
    · exact ⟨row, (next.foreign keyed (project ▸ owned)).1 member, rfl⟩

/-- Nothing is purged, so that the second refresh finds the calls and parents of the first. -/
theorem again_purged (orderly : store.Orderly) :
    next.purged.calls.rows = after.calls.rows ∧ next.purged.parents.rows = after.parents.rows := by
  have purges := next.purges
  rw [stages.again_removed next orderly] at purges
  rw [purgeStale_nothing purges, next.stored_calls, next.stored_parents]
  exact ⟨rfl, rfl⟩

theorem again_calls (orderly : store.Orderly) :
    UpTo CallRow.unnumbered after.calls.rows again.calls.rows := by
  rw [UpTo, next.calls_unnumbered, (stages.again_purged next orderly).1,
    (stages.again_project next orderly).1, stages.again_ids next orderly, stages.kept_calls,
    stages.calls_unnumbered]

/-- Before their parents are stored, the two refreshes have come to the same content. -/
theorem again_without_parents (orderly : store.Orderly) :
    Same (stages.called.withoutParents stages.project.id)
      (next.called.withoutParents stages.project.id) := by
  have entities := stages.again_entities next orderly
  have owns : next.called.owns stages.project.id = after.owns stages.project.id := by
    rw [owns_congr next.called_entities, owns_upTo entities]
  constructor
  · rw [← stages.called_entities, ← next.called_entities] at entities
    exact entities
  · have calls := stages.again_calls next orderly
    rw [stages.after_calls, next.after_calls] at calls
    exact calls
  · rw [UpTo]
    dsimp only [withoutParents, Table.filter]
    rw [(replaceCalls_frame next.calls).2.2, (stages.again_purged next orderly).2, owns,
      stages.kept_parents orderly.keyed, owns_congr stages.called_entities]

theorem again_same (orderly : store.Orderly) : second.parents = report.parents ∧
    second.linking = report.linking ∧ Same after again := by
  have names := next.names
  rw [stages.again_ids next orderly, (stages.again_project next orderly).1, replaceParents_eq] at names
  obtain ⟨inserted, named⟩ :=
    (stages.again_without_parents next orderly).addParents (allParents files stages.ids)
  rw [names, ← replaceParents_eq, stages.names] at inserted named
  have links := next.links
  rw [(stages.again_project next orderly).1] at links
  obtain ⟨linking, linked⟩ := named.linkParents stages.project.id
  rw [links, stages.links] at linking linked
  exact ⟨inserted.symm, linking.symm, linked⟩

theorem again_report (orderly : store.Orderly) :
    second =
      { report with generation := report.generation + 1, staleEntitiesRemoved := 0 } := by
  obtain ⟨project, generation⟩ := stages.again_project next orderly
  obtain ⟨parents, linking, -⟩ := stages.again_same next orderly
  have calls : second.calls = report.calls := by
    have counted := congrArg Prod.fst next.calls
    rw [stages.again_ids next orderly] at counted
    exact counted.symm.trans (congrArg Prod.fst stages.calls)
  rw [stages.reported, next.reported]
  simp only [project, stages.again_ids next orderly, next.generation_eq, generation, parents, linking,
    calls, stages.again_removed next orderly]

end Refresh.Stages

namespace Store

/-- Refreshing a project again from the same files changes nothing that can be seen. The second report
counts one more generation and nothing stale, and the store holds the same content: declarations up to
their generation, calls and parents up to their numbers. So it answers all queries as before. -/
theorem refresh_again_changes_nothing (requests : List RefreshRequest) (name rootPath : String)
    (scanned : Nat) (files : List FileFacts) :
    ∃ first after second again,
      (empty.refreshAll requests).refresh name rootPath scanned files = .ok (first, after) ∧
      after.refresh name rootPath scanned files = .ok (second, again) ∧
      second = { first with generation := first.generation + 1, staleEntitiesRemoved := 0 } ∧
      again.entities.rows.map EntityRow.undated = after.entities.rows.map EntityRow.undated ∧
      again.calls.rows.map CallRow.unnumbered = after.calls.rows.map CallRow.unnumbered ∧
      again.parents.rows.map ParentRow.unnumbered = after.parents.rows.map ParentRow.unnumbered ∧
      SameAnswers after again := by
  obtain ⟨first, after, success⟩ :=
    refresh_succeeds (empty.refreshAll requests) name rootPath scanned files
  obtain ⟨second, again, success'⟩ := refresh_succeeds after name rootPath scanned files
  obtain ⟨stages⟩ := refresh_stages success
  obtain ⟨next⟩ := refresh_stages success'
  have orderly := empty_orderly.refreshAll requests
  obtain ⟨-, -, same⟩ := stages.again_same next orderly
  exact ⟨first, after, second, again, success, success', stages.again_report next orderly,
    same.entities.symm, same.calls.symm, same.parents.symm, same.answers⟩

end Store

end DeclGraph
