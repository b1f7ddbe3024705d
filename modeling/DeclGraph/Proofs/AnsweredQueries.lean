import Mathlib
import DeclGraph.Hierarchy.Queries
import DeclGraph.Store.Stats
import DeclGraph.Proofs.RefreshedEntities
import DeclGraph.Proofs.TraversalBounds

/-! No query fails on what operations have stored. Only the reading of a row can fail: a text that is
no language, kind or heritage, or a line that is no word. Operations write the texts and lines of drafts,
and all of these are read as what they were. A declaration is then read as its draft until a later draft of its
identity overwrites it or a purge takes it. -/
namespace DeclGraph.Store

variable {store after : Store} {projectId generation id : Int} {row : EntityRow}

/-- Every query is answered, whatever it asks for. The counts that can be taken without reading rows are the
lengths of the listings. -/
structure Answering (store : Store) : Prop where
  entity : ∀ id, ∃ found, store.entity? id = .ok found
  named : ∀ projectId symbol kinds, ∃ found, store.entitiesNamed projectId symbol kinds = .ok found
  entities : ∀ projectId, ∃ found, store.entitiesOf projectId = .ok found ∧
    found.length = (store.stats projectId).entities
  callees : ∀ id, ∃ found, store.calleesOf id = .ok found
  callers : ∀ id, ∃ found, store.callersOf id = .ok found
  sites : ∀ callerId calleeId, ∃ found, store.callSites callerId calleeId = .ok found
  edges : ∀ projectId, ∃ found, store.parentEdgesOf projectId = .ok found ∧
    found.length = (store.stats projectId).parentEdges
  parents : ∀ id, ∃ found, store.parentsOf id = .ok found
  children : ∀ id, ∃ found, store.childrenOf id = .ok found
  naming : ∀ projectId symbol, ∃ found, store.childrenNaming projectId symbol = .ok found
  hierarchy : ∀ projectId, ∃ found, store.hierarchyStats projectId = .ok found
  root : ∀ projectId symbol, ∃ found, store.root? projectId symbol = .ok found
  tree : ∀ limits projectId symbol direction depth, ∃ found,
    store.callTree limits projectId symbol direction depth = .ok found
  graph : ∀ limits projectId symbol depth, ∃ found,
    store.callGraph limits projectId symbol depth = .ok found
  reverse : ∀ limits projectId symbol depth, ∃ found,
    store.reverseCallGraph limits projectId symbol depth = .ok found

namespace Readable

theorem callSites (readable : store.Readable) (callerId calleeId : Int) :
    ∃ found, store.callSites callerId calleeId = .ok found := by
  apply mapM_succeeds
  intro row member
  have stored := List.mem_of_mem_filter (List.mem_mergeSort.1 member)
  obtain ⟨line, numbered⟩ := readable.lines row stored
  exact ⟨_, bind_eq_ok.2 ⟨line, numbered ▸ readLine_toNat line 4, rfl⟩⟩

theorem hierarchyStats (readable : store.Readable) (projectId : Int) :
    ∃ found, store.hierarchyStats projectId = .ok found := by
  obtain ⟨edges, listed⟩ := readable.heritages.parentEdgesOf projectId
  obtain ⟨entities, read⟩ := readable.entitiesOf projectId
  exact ⟨_, bind_eq_ok.2 ⟨edges, listed, bind_eq_ok.2 ⟨entities, read, rfl⟩⟩⟩

theorem answering (readable : store.Readable) : store.Answering where
  entity := readable.entity?
  named := readable.entitiesNamed
  entities projectId := by
    obtain ⟨found, read⟩ := readable.entitiesOf projectId
    exact ⟨found, read, (mapM_eq_ok.1 read).length_eq.symm⟩
  callees := readable.neighbors .callees
  callers := readable.neighbors .callers
  sites := readable.callSites
  edges projectId := by
    obtain ⟨found, read⟩ := readable.heritages.parentEdgesOf projectId
    exact ⟨found, read, (mapM_eq_ok.1 read).length_eq.symm⟩
  parents := readable.heritages.parentsOf
  children _ := readable.heritages.childRows _
  naming _ _ := readable.heritages.childRows _
  hierarchy := readable.hierarchyStats
  root := readable.root?
  tree := readable.callTree
  graph _ projectId symbol _ := readable.around _ projectId symbol _ _
  reverse _ projectId symbol _ := readable.around _ projectId symbol _ _

end Readable

-- A heritage that no operation writes is not read.
example :
    ({ empty with
        parents := empty.parents.append fun id =>
          { id, childId := 1, parentId := none, symbol := "Base", heritage := "inherits" } } :
      Store).parentsOf 1 = .error (.unreadableHeritage "inherits" 4) :=
  rfl

/-- An operation that stores no draft of an identity and purges nothing of its project that has the
given generation. -/
def Spares (store : Store) (key : EntityKey) (generation : Int) : Operation → Prop
  | .putEntity projectId _ draft => draft.key projectId ≠ key
  | .putEntities projectId _ drafts => ∀ draft ∈ drafts, draft.key projectId ≠ key
  | .purgeStale projectId bound => projectId = key.projectId → bound ≤ generation
  | .refresh name rootPath _ files =>
    let project := (store.putProject name rootPath).1
    project.id = key.projectId →
      (∀ draft ∈ Refresh.drafts files, draft.key project.id ≠ key) ∧
        project.generation + 1 ≤ generation
  | _ => True

def SparesAll (store : Store) (key : EntityKey) (generation : Int) : List Operation → Prop
  | [] => True
  | operation :: rest =>
    store.Spares key generation operation ∧ (store.apply operation).SparesAll key generation rest

theorem refresh_keeps {name rootPath : String} {scanned : Nat} {files : List Extract.FileFacts}
    {report : RefreshReport} (keyed : store.Keyed) (member : row ∈ store.entities.rows)
    (spares : store.Spares row.key row.generation (.refresh name rootPath scanned files))
    (success : store.refresh name rootPath scanned files = .ok (report, after)) :
    row ∈ after.entities.rows := by
  obtain ⟨stages⟩ := refresh_stages success
  simp only [Spares, ← stages.project_eq] at spares
  have begun : row ∈ stages.begun.entities.rows := stages.begun_entities ▸ member
  have apart : ∀ draft ∈ Refresh.drafts files, row.key ≠ draft.key stages.project.id := by
    intro draft extracted same
    have own : stages.project.id = row.key.projectId := by rw [same]; rfl
    exact (spares own).1 draft extracted same.symm
  apply stages.mem_after.2
  refine ⟨putEntities_keeps (stages.begun_keyed keyed) stages.stores begun apart, fun own => ?_⟩
  rw [stages.generation_eq]
  exact (spares own.symm).2

-- One operation leaves the row as it is.
theorem apply_keeps (keyed : store.Keyed) (member : row ∈ store.entities.rows)
    {operation : Operation} (spares : store.Spares row.key row.generation operation) :
    row ∈ (store.apply operation).entities.rows := by
  cases operation with
  | putProject name rootPath =>
      have frame : (store.putProject name rootPath).2.entities = store.entities :=
        (putProject_frame (Prod.mk.eta).symm).1
      exact frame ▸ member
  | beginGeneration projectId =>
      simp only [apply]
      split
      next success => rwa [(beginGeneration_frame success).1]
      next => exact member
  | putEntity projectId generation draft =>
      exact (putEntity_mem keyed rfl).2 (Or.inl ⟨member, Ne.symm spares⟩)
  | putEntities projectId generation drafts =>
      exact putEntities_keeps keyed rfl member fun draft present => (spares draft present).symm
  | purgeStale projectId bound =>
      exact (purgeStale_mem rfl).2 ⟨member, fun own => spares own.symm⟩
  | replaceCalls projectId drafts => exact member
  | addParents drafts =>
      rw [apply, (addParents_frame drafts).2.1]
      exact member
  | replaceParents projectId drafts =>
      have frame : (store.replaceParents projectId drafts).2.entities = store.entities :=
        (replaceParents_frame (Prod.mk.eta).symm).2.1
      exact frame ▸ member
  | linkParents projectId => exact member
  | refresh name rootPath scanned files =>
      simp only [apply]
      split
      next success => exact refresh_keeps keyed member spares success
      next => exact member

theorem replay_keeps (keyed : store.Keyed) (member : row ∈ store.entities.rows)
    {later : List Operation} (spares : store.SparesAll row.key row.generation later) :
    row ∈ (store.replay later).entities.rows := by
  induction later generalizing store with
  | nil => exact member
  | cons operation rest ih =>
      have keyed' : (store.apply operation).Keyed :=
        replay_preserves Change.keyed keyed [operation]
      exact ih keyed' (apply_keeps keyed member spares.1) spares.2

/-- After any operations every query is answered. What comes back for the number of a draft is the
draft, field by field, as long as the operations that follow spare it. -/
theorem every_query_is_answered (operations : List Operation) :
    (empty.replay operations).Answering ∧
    ∀ projectId generation draft id after later,
      (empty.replay operations).putEntity projectId generation draft = (id, after) →
      after.SparesAll (draft.key projectId) generation later →
        (after.replay later).entity? id =
          .ok (some { toEntityDraft := draft, id, projectId }) := by
  refine ⟨(replay_readable operations).answering, ?_⟩
  intro projectId generation draft id after later done spares
  have keyed := replay_keyed operations
  have stored : EntityRow.ofDraft projectId generation draft id ∈ after.entities.rows :=
    (putEntity_mem keyed done).2 (Or.inr rfl)
  have kept := replay_keeps (putEntity_keyed keyed done) stored spares
  exact entity?_eq_some_iff.2 ⟨_, kept, rfl, EntityRow.ofDraft_read projectId generation draft id⟩

/-! A class of another file is stored, an old generation purged and another project refreshed. The first
class is still read as it was written. -/

def farmStore : Store :=
  ((empty.replay [.putProject "farm" "farm"]).putEntity 1 4 (classDraft "Base" "a.py")).2

def sparingRun : List Operation :=
  [.putEntity 1 5 (classDraft "Base" "b.py"), .purgeStale 1 4, .refresh "zoo" "zoo" 0 [],
    .purgeStale 2 9]

theorem base_read_as_written :
    farmStore.SparesAll ((classDraft "Base" "a.py").key 1) 4 sparingRun ∧
      (farmStore.replay sparingRun).entity? 1 =
        .ok (some { toEntityDraft := classDraft "Base" "a.py", id := 1, projectId := 1 }) := by
  have spares : farmStore.SparesAll ((classDraft "Base" "a.py").key 1) 4 sparingRun := by
    refine ⟨?_, fun _ => le_refl 4, ?_, ?_, trivial⟩
    · simp [Spares, EntityDraft.key, classDraft]
    · -- The refreshed project is the second one.
      intro own
      exact absurd own (by decide +kernel)
    · intro own
      exact absurd own (by decide)
  exact ⟨spares, (every_query_is_answered [.putProject "farm" "farm"]).2 1 4 _ 1 _ _ rfl spares⟩

end DeclGraph.Store
