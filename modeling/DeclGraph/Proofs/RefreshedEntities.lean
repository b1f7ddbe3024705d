import Mathlib
import DeclGraph.Proofs.StoredDrafts

/-! A refresh rebuilds the declarations of its project. It counts the project up, stores what was
extracted under the new generation and purges what is left behind. Afterwards the project has one
declaration for each identity that was extracted, and an identity that was stored has kept its number. -/
namespace DeclGraph

open Refresh Extract

theorem rows_eq_of_mem_iff {ρ : Type} [Numbered ρ] {rows others : List ρ}
    (ordered : rows.Pairwise fun a b => Numbered.id a < Numbered.id b)
    (ordered' : others.Pairwise fun a b => Numbered.id a < Numbered.id b)
    (same : ∀ row, row ∈ rows ↔ row ∈ others) : rows = others := by
  have distinct : ∀ {list : List ρ}, list.Pairwise (fun a b => Numbered.id a < Numbered.id b) →
      list.Nodup := fun ordered => ordered.imp fun less equal => by simp [equal] at less
  refine List.Perm.eq_of_pairwise (fun a b _ _ less greater => ?_) ordered ordered'
    ((List.perm_ext_iff_of_nodup (distinct ordered) (distinct ordered')).2 same)
  exact absurd (less.trans greater) (lt_irrefl _)

def EntityRow.unnumbered (row : EntityRow) : EntityRow :=
  { row with id := 0 }

namespace Refresh

def allCalls (files : List FileFacts) (ids : List Int) : List CallDraft :=
  (withOffsets 0 files).flatMap fun (file, offset) =>
    callDrafts (targets (drafts files) ids) ids file offset

def allParents (files : List FileFacts) (ids : List Int) : List ParentDraft :=
  (withOffsets 0 files).flatMap fun (file, offset) =>
    parentDrafts (targets (drafts files) ids) ids file offset

structure Stages (store : Store) (name rootPath : String) (scanned : Nat) (files : List FileFacts)
    (report : RefreshReport) (after : Store) where
  project : Project
  moved : Store
  begun : Store
  ids : List Int
  stored : Store
  purged : Store
  called : Store
  named : Store
  moves : store.putProject name rootPath = (project, moved)
  begins : moved.beginGeneration project.id = .ok (report.generation, begun)
  stores : begun.putEntities project.id report.generation (drafts files) = (ids, stored)
  purges : stored.purgeStale project.id report.generation = (report.staleEntitiesRemoved, purged)
  calls : purged.replaceCalls project.id (allCalls files ids) = (report.calls, called)
  names : called.replaceParents project.id (allParents files ids) = (report.parents, named)
  links : named.linkParents project.id = (report.linking, after)
  reported : report =
    { report with
      projectId := project.id
      filesScanned := scanned
      filesIndexed := files.length
      filesFailed := scanned - files.length
      entities := ids.length
      unresolvedCalls := ((allCalls files ids).filter (·.calleeId.isNone)).length }

end Refresh

namespace Store

variable {store after : Store} {name rootPath : String} {scanned : Nat} {files : List FileFacts}
  {report : RefreshReport} {project other : Project} {projectId generation id : Int}
  {row : EntityRow} {key : EntityKey}

theorem refresh_stages (success : store.refresh name rootPath scanned files = .ok (report, after)) :
    Nonempty (Stages store name rootPath scanned files report after) := by
  unfold refresh at success
  rcases moves : store.putProject name rootPath with ⟨project, moved⟩
  simp only [moves] at success
  obtain ⟨⟨generation, begun⟩, begins, success⟩ := bind_eq_ok.1 success
  rcases stores : begun.putEntities project.id generation (drafts files) with ⟨ids, stored⟩
  rcases purges : stored.purgeStale project.id generation with ⟨removed, purged⟩
  simp only [stores, purges, Except.ok.injEq, Prod.mk.injEq] at success
  rcases calls : purged.replaceCalls project.id (allCalls files ids) with ⟨count, called⟩
  rcases names : called.replaceParents project.id (allParents files ids) with ⟨inserted, named⟩
  simp only [allCalls] at calls
  simp only [allParents] at names
  simp only [calls, names] at success
  obtain ⟨rfl, rfl⟩ := success
  exact ⟨{ project, moved, begun, ids, stored, purged, called, named, moves, begins, stores, purges,
           calls, names, links := rfl, reported := rfl }⟩

/-- The project that is put is one of that name at a new root, or a new one. -/
theorem putProject_cases (done : store.putProject name rootPath = (project, after)) :
    project.name = name ∧
      ((∃ old ∈ store.projects.rows, project = { old with rootPath }) ∨
        (project.id = store.projects.next ∧ project.generation = 0 ∧
          ∀ other ∈ store.projects.rows, other.name ≠ name)) := by
  unfold putProject at done
  split at done
  next old found =>
    have hit := List.find?_some found
    cases done
    exact ⟨beq_iff_eq.1 hit, Or.inl ⟨old, List.mem_of_find?_eq_some found, rfl⟩⟩
  next missing =>
    cases done
    refine ⟨rfl, Or.inr ⟨rfl, rfl, fun other member same => ?_⟩⟩
    exact List.find?_eq_none.1 missing other member (beq_iff_eq.2 same)

theorem putProject_mem (done : store.putProject name rootPath = (project, after)) :
    other ∈ after.projects.rows ↔
      (other ∈ store.projects.rows ∧ other.id ≠ project.id) ∨ other = project := by
  unfold putProject at done
  split at done
  next old found =>
    cases done
    exact Table.mem_map_one (fun row : Project => { row with rootPath })
      (List.mem_of_find?_eq_some found)
  next =>
    cases done
    simp only [Table.append, List.mem_append, List.mem_singleton]
    refine or_congr_left ⟨fun present => ⟨present, ?_⟩, And.left⟩
    have bounded := store.projects.bounded other present
    exact Int.ne_of_lt (Int.lt_add_one_of_le bounded)

/-- Counting a stored project up succeeds and changes no other one. -/
theorem beginGeneration_stored (member : project ∈ store.projects.rows) :
    ∃ begun, store.beginGeneration project.id = .ok (project.generation + 1, begun) ∧
      ∀ other, other ∈ begun.projects.rows ↔
        (other ∈ store.projects.rows ∧ other.id ≠ project.id) ∨
          other = { project with generation := project.generation + 1 } := by
  have found : store.projects.find? project.id = some project :=
    Table.find?_eq_some_iff.2 ⟨member, rfl⟩
  simp only [beginGeneration, found]
  refine ⟨_, rfl, fun other => ?_⟩
  exact Table.mem_map_one (fun row : Project => { row with generation := row.generation + 1 }) member

/-- A refresh cannot fail: it puts the project that it counts up. -/
theorem refresh_succeeds (store : Store) (name rootPath : String) (scanned : Nat)
    (files : List FileFacts) :
    ∃ report after, store.refresh name rootPath scanned files = .ok (report, after) := by
  have present : (store.putProject name rootPath).1 ∈ (store.putProject name rootPath).2.projects.rows :=
    (putProject_mem rfl).2 (Or.inr rfl)
  obtain ⟨begun, begins, -⟩ := beginGeneration_stored present
  simp only [refresh, begins, bind, Except.bind]
  exact ⟨_, _, rfl⟩

theorem addParents_frame (drafts : List ParentDraft) :
    (store.addParents drafts).2.projects = store.projects ∧
      (store.addParents drafts).2.entities = store.entities ∧
      (store.addParents drafts).2.calls = store.calls := by
  refine List.foldlRecOn (motive := fun state : InsertReport × Store =>
    state.2.projects = store.projects ∧ state.2.entities = store.entities ∧
      state.2.calls = store.calls) drafts _ ⟨rfl, rfl, rfl⟩ ?_
  rintro ⟨before, between⟩ ⟨projects, entities, calls⟩ draft -
  obtain ⟨projects', entities', calls'⟩ :=
    addParent_frame (Eq.refl (between.addParent before draft))
  exact ⟨projects'.trans projects, entities'.trans entities, calls'.trans calls⟩

theorem replaceParents_frame {drafts : List ParentDraft} {inserted : InsertReport}
    (done : store.replaceParents projectId drafts = (inserted, after)) :
    after.projects = store.projects ∧ after.entities = store.entities ∧ after.calls = store.calls := by
  obtain rfl : (store.replaceParents projectId drafts).2 = after := congrArg Prod.snd done
  exact addParents_frame drafts

theorem purgeStale_mem {removed : Nat}
    (done : store.purgeStale projectId generation = (removed, after)) :
    row ∈ after.entities.rows ↔
      row ∈ store.entities.rows ∧ (row.projectId = projectId → generation ≤ row.generation) := by
  rw [(purgeStale_purges done).mem_entities, EntityRow.Outdated, not_and, not_lt]

/-- No declaration of a project is ahead of it. -/
def Current (store : Store) (project : Project) : Prop :=
  ∀ row ∈ store.entities.rows, row.projectId = project.id → row.generation ≤ project.generation

end Store

namespace Refresh.Stages

open Store

variable {store after : Store} {name rootPath : String} {scanned : Nat} {files : List FileFacts}
  {report : RefreshReport} {row : EntityRow} {draft : EntityDraft} {id : Int} {key : EntityKey}
  (stages : Stages store name rootPath scanned files report after)
include stages

theorem project_eq : stages.project = (store.putProject name rootPath).1 :=
  (congrArg Prod.fst stages.moves).symm

theorem owner_eq : report.projectId = stages.project.id :=
  congrArg RefreshReport.projectId stages.reported

theorem project_counted : report.generation = stages.project.generation + 1 ∧
    ∀ other, other ∈ stages.begun.projects.rows ↔
      (other ∈ stages.moved.projects.rows ∧ other.id ≠ stages.project.id) ∨
        other = { stages.project with generation := report.generation } := by
  have present := (putProject_mem stages.moves).2 (Or.inr rfl)
  obtain ⟨begun, begins, members⟩ := beginGeneration_stored present
  have same := stages.begins.symm.trans begins
  simp only [Except.ok.injEq, Prod.mk.injEq] at same
  obtain ⟨generation, rfl⟩ := same
  rw [generation]
  exact ⟨rfl, members⟩

theorem generation_eq : report.generation = stages.project.generation + 1 :=
  stages.project_counted.1

theorem begun_entities : stages.begun.entities = store.entities :=
  (beginGeneration_frame stages.begins).1.trans (putProject_frame stages.moves).1

theorem after_entities : after.entities = stages.purged.entities := by
  rw [(linkParents_frame stages.links).2.1, (replaceParents_frame stages.names).2.1,
    (replaceCalls_frame stages.calls).2.1]

theorem mem_after : row ∈ after.entities.rows ↔ row ∈ stages.stored.entities.rows ∧
    (row.projectId = stages.project.id → report.generation ≤ row.generation) := by
  rw [stages.after_entities, purgeStale_mem stages.purges]

theorem begun_keyed (keyed : store.Keyed) : stages.begun.Keyed :=
  keyed.frame stages.begun_entities

theorem stored_keyed (keyed : store.Keyed) : stages.stored.Keyed :=
  putEntities_keyed (stages.begun_keyed keyed) stages.stores

theorem origin (keyed : store.Keyed) (member : row ∈ stages.stored.entities.rows) :
    (row ∈ store.entities.rows ∧ ∀ draft ∈ drafts files, row.key ≠ draft.key stages.project.id) ∨
      ∃ draft ∈ lastDrafts (drafts files),
        row = EntityRow.ofDraft stages.project.id report.generation draft row.id := by
  rw [← stages.begun_entities]
  exact putEntities_origin (stages.begun_keyed keyed) stages.stores member

/-- An old declaration of the project that was not extracted again is left behind. -/
theorem stale_iff (keyed : store.Keyed) (current : store.Current stages.project) :
    row ∈ stages.stored.entities.rows ∧
        isStale stages.project.id report.generation row = true ↔
      row ∈ store.entities.rows ∧ row.projectId = stages.project.id ∧
        ∀ draft ∈ drafts files, row.key ≠ draft.key stages.project.id := by
  simp only [isStale, Bool.and_eq_true, beq_iff_eq, decide_eq_true_eq]
  constructor
  · rintro ⟨member, owned, behind⟩
    rcases stages.origin keyed member with ⟨old, apart⟩ | ⟨draft, -, written⟩
    · exact ⟨old, owned, apart⟩
    · -- What was just written has the generation that the purge spares.
      rw [written] at behind
      exact absurd behind (lt_irrefl _)
  · rintro ⟨old, owned, apart⟩
    rw [← stages.begun_entities] at old
    refine ⟨putEntities_keeps (stages.begun_keyed keyed) stages.stores old apart, owned, ?_⟩
    rw [stages.begun_entities] at old
    rw [stages.generation_eq]
    exact Int.lt_add_one_of_le (current row old owned)

/-- What the project has after the refresh was written by the last draft of its identity. -/
theorem written (keyed : store.Keyed) (current : store.Current stages.project)
    (member : row ∈ after.entities.rows) (owned : row.projectId = stages.project.id) :
    ∃ draft ∈ lastDrafts (drafts files),
      row = EntityRow.ofDraft stages.project.id report.generation draft row.id := by
  obtain ⟨stored, fresh⟩ := stages.mem_after.1 member
  rcases stages.origin keyed stored with ⟨old, apart⟩ | written
  · have stale := ((stages.stale_iff keyed current).2 ⟨old, owned, apart⟩).2
    simp only [isStale, Bool.and_eq_true, decide_eq_true_eq] at stale
    exact absurd (fresh owned) (not_le.2 stale.2)
  · exact written

theorem survives (keyed : store.Keyed) (member : draft ∈ drafts files)
    (stored : stages.stored.Identifies id (draft.key stages.project.id)) :
    after.Identifies id (draft.key stages.project.id) := by
  obtain ⟨row, present, numbered, keyed'⟩ := stored
  refine ⟨row, stages.mem_after.2 ⟨present, fun _ => ?_⟩, numbered, keyed'⟩
  rcases stages.origin keyed present with ⟨-, apart⟩ | ⟨writer, -, written⟩
  · exact absurd keyed' (apart draft member)
  · rw [written]
    exact le_refl _

theorem numbers (keyed : store.Keyed) :
    List.Forall₂ (fun draft id => after.Identifies id (draft.key stages.project.id))
      (drafts files) stages.ids := by
  obtain ⟨length, pairs⟩ :=
    List.forall₂_iff_zip.1 (putEntities_numbers (stages.begun_keyed keyed) stages.stores)
  refine List.forall₂_iff_zip.2 ⟨length, fun pair => ?_⟩
  exact stages.survives keyed (List.of_mem_zip pair).1 (pairs pair)

theorem numbered (keyed : store.Keyed) (member : draft ∈ drafts files) :
    ∃ id, after.Identifies id (draft.key stages.project.id) := by
  obtain ⟨id, -, stands⟩ := exists_right_of_mem (stages.numbers keyed) member
  exact ⟨id, stands⟩

/-- An identity that was stored and is extracted again keeps its number. -/
theorem keeps_number (keyed : store.Keyed) (member : draft ∈ drafts files)
    (before : store.Identifies id (draft.key stages.project.id)) :
    after.Identifies id (draft.key stages.project.id) := by
  refine stages.survives keyed member (putEntities_identifies_mono stages.stores ?_)
  obtain ⟨row, present, numbered, keyed'⟩ := before
  exact ⟨row, stages.begun_entities ▸ present, numbered, keyed'⟩

theorem after_keyed (keyed : store.Keyed) : after.Keyed :=
  (stages.stored_keyed keyed).subset fun _ member => (stages.mem_after.1 member).1

theorem last_written (keyed : store.Keyed) (current : store.Current stages.project)
    (last : draft ∈ lastDrafts (drafts files))
    (stands : after.Identifies id (draft.key stages.project.id)) :
    EntityRow.ofDraft stages.project.id report.generation draft id ∈ after.entities.rows := by
  obtain ⟨row, member, rfl, same⟩ := stands
  obtain ⟨writer, last', written⟩ :=
    stages.written keyed current member (congrArg EntityKey.projectId same)
  rw [written, EntityRow.ofDraft_key, EntityDraft.key_eq_iff] at same
  obtain rfl := eq_of_mem_lastDrafts last' last same
  rw [← written]
  exact member

/-- The declarations of the project, numbers apart, are those that the last drafts write. -/
theorem entities_perm (keyed : store.Keyed) (current : store.Current stages.project) :
    ((after.entities.rows.filter (·.projectId == stages.project.id)).map EntityRow.unnumbered).Perm
      ((lastDrafts (drafts files)).map
        (EntityRow.ofDraft stages.project.id report.generation · 0)) := by
  have distinct : ((after.entities.rows.filter
      (·.projectId == stages.project.id)).map EntityRow.unnumbered).Nodup := by
    refine List.Nodup.of_map EntityRow.key ?_
    rw [List.map_map]
    exact (stages.after_keyed keyed).keys_nodup.sublist (List.filter_sublist.map _)
  have distinct' : ((lastDrafts (drafts files)).map
      (EntityRow.ofDraft stages.project.id report.generation · 0)).Nodup := by
    refine List.Nodup.map_on (fun a first b second same => ?_)
      (List.Nodup.of_map _ (lastDrafts_distinct (drafts files)))
    exact eq_of_mem_lastDrafts first second
      (EntityDraft.key_eq_iff.1 (congrArg EntityRow.key same))
  refine (List.perm_ext_iff_of_nodup distinct distinct').2 fun row => ?_
  simp only [List.mem_map, List.mem_filter, beq_iff_eq]
  constructor
  · rintro ⟨row, ⟨member, owned⟩, rfl⟩
    obtain ⟨draft, last, written⟩ := stages.written keyed current member owned
    exact ⟨draft, last, by rw [written]; rfl⟩
  · rintro ⟨draft, last, rfl⟩
    obtain ⟨id, stands⟩ := stages.numbered keyed (lastDrafts_subset last)
    exact ⟨_, ⟨stages.last_written keyed current last stands, rfl⟩, rfl⟩

/-- The purge counts the identities that were stored and have not been extracted again. -/
theorem removed_eq (keyed : store.Keyed) (current : store.Current stages.project) :
    report.staleEntitiesRemoved = {key : EntityKey | (∃ id, store.Identifies id key) ∧
      key.projectId = stages.project.id ∧
      ∀ draft ∈ drafts files, draft.key stages.project.id ≠ key}.ncard := by
  let stale := stages.stored.entities.rows.filter (isStale stages.project.id report.generation)
  have counted : report.staleEntitiesRemoved = (stale.map EntityRow.key).length := by
    have result := congrArg Prod.fst stages.purges
    rw [purgeStale_eq] at result
    rw [List.length_map]
    exact result.symm
  -- Stale rows can be counted by their identities, which they do not share.
  have distinct : (stale.map EntityRow.key).Nodup :=
    (stages.stored_keyed keyed).keys_nodup.sublist (List.filter_sublist.map _)
  have listed : {key : EntityKey | (∃ id, store.Identifies id key) ∧
      key.projectId = stages.project.id ∧
      ∀ draft ∈ drafts files, draft.key stages.project.id ≠ key} =
        ((stale.map EntityRow.key).toFinset : Set EntityKey) := by
    ext key
    simp only [Set.mem_ofPred_eq, List.coe_toFinset, List.mem_map, stale, List.mem_filter,
      stages.stale_iff keyed current]
    constructor
    · rintro ⟨⟨id, row, member, -, rfl⟩, owned, apart⟩
      exact ⟨row, ⟨member, owned, fun draft present => (apart draft present).symm⟩, rfl⟩
    · rintro ⟨row, ⟨member, owned, apart⟩, rfl⟩
      exact ⟨⟨row.id, row, member, rfl, rfl⟩, owned, fun draft present => (apart draft present).symm⟩
  rw [listed, Set.ncard_coe_finset, List.toFinset_card_of_nodup distinct, counted]

end Refresh.Stages

namespace Store

/-- A refresh succeeds and leaves, of what its project had and of what was extracted, exactly one
declaration for each extracted identity. It is as the last definition of that identity says, and has
kept the number that the identity had before. The report counts the identities that are gone. -/
theorem refresh_rebuilds_entities (store : Store) (name rootPath : String) (scanned : Nat)
    (files : List FileFacts) (keyed : store.Keyed)
    (current : store.Current (store.putProject name rootPath).1) :
    ∃ report after, store.refresh name rootPath scanned files = .ok (report, after) ∧
      report.projectId = (store.putProject name rootPath).1.id ∧
      report.generation = (store.putProject name rootPath).1.generation + 1 ∧
      ((after.entities.rows.filter (·.projectId == report.projectId)).map EntityRow.unnumbered).Perm
        ((lastDrafts (drafts files)).map
          (EntityRow.ofDraft report.projectId report.generation · 0)) ∧
      (∀ id, ∀ draft ∈ drafts files, store.Identifies id (draft.key report.projectId) →
        after.Identifies id (draft.key report.projectId)) ∧
      report.staleEntitiesRemoved = {key : EntityKey | (∃ id, store.Identifies id key) ∧
        key.projectId = report.projectId ∧
        ∀ draft ∈ drafts files, draft.key report.projectId ≠ key}.ncard := by
  obtain ⟨report, after, success⟩ := refresh_succeeds store name rootPath scanned files
  obtain ⟨stages⟩ := refresh_stages success
  rw [← stages.project_eq] at current ⊢
  refine ⟨report, after, success, stages.owner_eq, stages.generation_eq, ?_⟩
  rw [stages.owner_eq]
  exact ⟨stages.entities_perm keyed current,
    fun _ _ member before => stages.keeps_number keyed member before,
    stages.removed_eq keyed current⟩

/-! A function of a file is defined twice when the file is read again, one is new and one is gone. -/

def shopFile (definitions : List (String × UInt32)) : FileFacts where
  filename := "shop.py"
  language := .python
  definitions := definitions.map fun (symbol, line) => ⟨symbol, .function, line, line, none, []⟩

def shopStore : Store :=
  empty.replay [.refresh "shop" "." 1 [shopFile [("cart", 1), ("total", 5)]]]

theorem shop_entities_rebuilt :
    ∃ report after,
      shopStore.refresh "shop" "." 1 [shopFile [("cart", 1), ("pay", 4), ("cart", 9)]] =
        .ok (report, after) ∧
      ((after.entities.rows.filter (·.projectId == 1)).map EntityRow.unnumbered).Perm
        [⟨0, 1, "python", "pay", "function", "shop.py", 4, 4, none, 2⟩,
          ⟨0, 1, "python", "cart", "function", "shop.py", 9, 9, none, 2⟩] ∧
      after.Identifies 1 ⟨1, "python", "cart", "function", "shop.py"⟩ := by
  have keyed : shopStore.Keyed := replay_preserves Change.keyed (by simp [Keyed, empty]) _
  have rows : shopStore.entities.rows =
      [⟨1, 1, "python", "cart", "function", "shop.py", 1, 1, none, 1⟩,
        ⟨2, 1, "python", "total", "function", "shop.py", 5, 5, none, 1⟩] := by cbv
  have project : (shopStore.putProject "shop" ".").1 = ⟨1, "shop", ".", 1⟩ := by cbv
  have current : shopStore.Current (shopStore.putProject "shop" ".").1 := by
    simp [Current, rows, project]
  obtain ⟨report, after, success, owner, generation, perm, kept, -⟩ :=
    refresh_rebuilds_entities shopStore "shop" "." 1
      [shopFile [("cart", 1), ("pay", 4), ("cart", 9)]] keyed current
  rw [project] at owner generation
  rw [owner] at perm kept
  refine ⟨report, after, success, ?_, ?_⟩
  · rw [generation] at perm
    exact perm
  · exact kept 1 (draftOf (shopFile []) ⟨"cart", .function, 1, 1, none, []⟩) (by simp [drafts, shopFile, draftOf])
      ⟨_, by rw [rows]; exact List.mem_cons_self, rfl, rfl⟩

end Store

end DeclGraph
