import Mathlib
import DeclGraph.Hierarchy.Queries
import DeclGraph.Store.Stats
import DeclGraph.Proofs.TraversalBounds

/-! The figures of a hierarchy are those of its listings. Edges are counted by heritage, open edges by
the missing link and roots by the texts of the table; listings show edges and declarations one by one,
as they are read. A text can stand for a kind without being its name, and a count by texts then misses
what a listing shows; operations store names only. -/
namespace DeclGraph.Store

variable {store : Store} {projectId : Int}

theorem heritageCounts_distinct (rows : List ParentRow) : ((heritageCounts rows).map (·.1)).Nodup := by
  rw [heritageCounts, List.map_map]
  simpa [Function.comp_def] using nodup_eraseDups (rows.map (·.heritage))

theorem mem_heritageCounts_iff (rows : List ParentRow) (text : String) (count : Nat) :
    (text, count) ∈ heritageCounts rows ↔
      text ∈ rows.map (·.heritage) ∧ count = (rows.map (·.heritage)).count text := by
  simp only [heritageCounts, List.mem_map (l := List.eraseDups _), Prod.mk.injEq, List.mem_eraseDups]
  constructor
  · rintro ⟨_, occurs, rfl, rfl⟩
    exact ⟨occurs, rfl⟩
  · rintro ⟨occurs, rfl⟩
    exact ⟨text, occurs, rfl, rfl⟩

/-- Every row has one heritage, so it is counted once. -/
theorem heritageCounts_sum (rows : List ParentRow) :
    ((heritageCounts rows).map (·.2)).sum = rows.length := by
  let texts := rows.map (·.heritage)
  have same : texts.eraseDups.Perm texts.dedup :=
    (List.perm_ext_iff_of_nodup (nodup_eraseDups texts) texts.nodup_dedup).2 <| by
      simp [List.mem_eraseDups, List.mem_dedup]
  calc ((heritageCounts rows).map (·.2)).sum
      = (texts.eraseDups.map (texts.count ·)).sum := by rw [heritageCounts, List.map_map]; rfl
    _ = (texts.dedup.map (texts.count ·)).sum := (same.map _).sum_eq
    _ = texts.length := texts.sum_map_count_dedup_eq_length
    _ = rows.length := List.length_map _

theorem isRootKind_iff {kind : EntityKind} :
    isRootKind kind.name = true ↔ kind ∈ [EntityKind.cls, .struct, .interface] := by
  cases kind <;> decide

theorem parentsOf_eq_nil_iff {id : Int} :
    store.parentsOf id = .ok [] ↔ (!store.parents.rows.any (·.childId == id)) = true := by
  have unread : store.parentsOf id = .ok [] ↔
      (store.parents.rows.filter (·.childId == id)).mapM ParentRow.read = .ok [] := by
    simp only [parentsOf, bind_eq_ok, Except.ok.injEq, List.map_eq_nil_iff, exists_eq_right]
  rw [unread, mapM_read_parents, List.map_nil, List.filter_eq_nil_iff]
  simp

theorem Drafted.read_kind (drafted : store.Drafted) {row : EntityRow} {entity : Entity}
    (member : row ∈ store.entities.rows) (read : row.read = .ok entity) :
    row.kind = entity.kind.name := by
  obtain ⟨draft, written⟩ := drafted row member
  rw [written, EntityRow.ofDraft_read] at read
  cases read
  rw [written]
  rfl

theorem length_filter_read {rows : List EntityRow} {entities : List Entity} {test : Entity → Bool}
    {check : EntityRow → Bool} (success : rows.mapM EntityRow.read = .ok entities)
    (agree : ∀ row ∈ rows, ∀ entity, row.read = .ok entity → test entity = check row) :
    (entities.filter test).length = (rows.filter check).length := by
  have pairs := mapM_eq_ok.1 success
  clear success
  induction pairs with
  | nil => rfl
  | @cons row entity _ _ first _ ih =>
      have here := agree row List.mem_cons_self entity first
      have others := ih fun later member => agree later (List.mem_cons_of_mem row member)
      by_cases counted : check row = true
      · rw [List.filter_cons_of_pos counted, List.filter_cons_of_pos (here.trans counted),
          List.length_cons, List.length_cons, others]
      · rw [List.filter_cons_of_neg counted, List.filter_cons_of_neg (here.trans_ne counted), others]

theorem Drafted.roots (drafted : store.Drafted) {entities : List Entity}
    (success : store.entitiesOf projectId = .ok entities) :
    (store.rootRows projectId).length = (entities.filter fun entity =>
      entity.kind ∈ [EntityKind.cls, .struct, .interface] ∧ store.parentsOf entity.id = .ok []).length := by
  have split : store.rootRows projectId =
      (store.entities.rows.filter (·.projectId == projectId)).filter fun row =>
        isRootKind row.kind && !store.parents.rows.any (·.childId == row.id) := by
    rw [rootRows, List.filter_filter]
    apply List.filter_congr
    intro row _
    rw [Bool.and_assoc, Bool.and_comm]
  rw [split]
  refine (length_filter_read success fun row member entity read => ?_).symm
  have stored := List.mem_of_mem_filter member
  rw [drafted.read_kind stored read, Bool.eq_iff_iff, decide_eq_true_iff, Bool.and_eq_true,
    isRootKind_iff, parentsOf_eq_nil_iff, EntityRow.read_id read]

/-- The figures of a project's hierarchy are found again in its listings and its other counts. -/
theorem hierarchy_counts_agree (operations : List Operation) (projectId : Int) :
    ∃ figures edges entities,
      (empty.replay operations).hierarchyStats projectId = .ok figures ∧
      (empty.replay operations).parentEdgesOf projectId = .ok edges ∧
      (empty.replay operations).entitiesOf projectId = .ok entities ∧
      figures.totalEdges = (figures.byHeritage.map (·.2)).sum ∧
      figures.totalEdges = edges.length ∧
      figures.totalEdges = ((empty.replay operations).stats projectId).parentEdges ∧
      (figures.byHeritage.map (·.1)).Nodup ∧
      (∀ text count, (text, count) ∈ figures.byHeritage ↔
        text ∈ edges.map (·.heritage.name) ∧ count = (edges.map (·.heritage.name)).count text) ∧
      figures.unresolvedEdges = ((empty.replay operations).stats projectId).unresolvedParents ∧
      figures.roots = (entities.filter fun entity =>
        entity.kind ∈ [EntityKind.cls, .struct, .interface] ∧
          (empty.replay operations).parentsOf entity.id = .ok []).length := by
  obtain ⟨edges, listed⟩ := (replay_heritagesKnown operations).parentEdgesOf projectId
  obtain ⟨entities, read⟩ := (replay_readable operations).entitiesOf projectId
  have rows : (empty.replay operations).parentRowsOf projectId = edges.map ParentEdge.row :=
    mapM_read_parents.1 listed
  have total : ∀ counts : List (String × Nat),
      counts.foldl (fun total entry => total + entry.2) 0 = (counts.map (·.2)).sum := by
    intro counts
    rw [List.sum_eq_foldl, List.foldl_map]
  refine ⟨_, edges, entities, bind_eq_ok.2 ⟨edges, listed, bind_eq_ok.2 ⟨entities, read, rfl⟩⟩, listed,
    read, ?_⟩
  refine ⟨total _, ?_, ?_, heritageCounts_distinct _, ?_, ?_, ?_⟩
  · rw [total, heritageCounts_sum, rows, List.length_map]
  · rw [total, heritageCounts_sum]
    rfl
  · intro text count
    rw [mem_heritageCounts_iff, rows, List.map_map]
    rfl
  · have unlinked : (edges.filter (·.parentId.isNone)).length =
        (((empty.replay operations).parentRowsOf projectId).filter (·.parentId.isNone)).length := by
      rw [rows, List.filter_map, List.length_map]
      rfl
    rw [unlinked, parentRowsOf, List.filter_filter]
    rfl
  · exact (replay_drafted operations).roots read

end DeclGraph.Store
