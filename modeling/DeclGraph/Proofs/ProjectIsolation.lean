import Mathlib
import DeclGraph.Hierarchy.Queries
import DeclGraph.Proofs.LinkingTime
import DeclGraph.Proofs.RefreshedCalls
import DeclGraph.Proofs.StoredParents
import DeclGraph.Proofs.TraversalScope
import DeclGraph.Store.Stats

/-! Projects do not disturb each other. Questions about a project look through whole tables and follow
numbers without asking for their project. But where no call and no link joins two projects, the answers
depend on the rows of the project alone. Stores that are only ever refreshed are of that kind, and a
refresh leaves the rows of all projects but its own. -/
namespace DeclGraph

section Part
variable {α β : Type} {rows : List α} {part test : α → Bool}

theorem filter_part (covers : ∀ row ∈ rows, test row = true → part row = true) :
    (rows.filter part).filter test = rows.filter test := by
  rw [List.filter_filter]
  apply List.filter_congr
  intro row member
  by_cases passes : test row = true
  · rw [covers row member passes, Bool.and_true]
  · rw [Bool.not_eq_true] at passes
    rw [passes, Bool.false_and]

theorem filterMap_part {make : α → Option β}
    (covers : ∀ row ∈ rows, ∀ value, make row = some value → part row = true) :
    (rows.filter part).filterMap make = rows.filterMap make := by
  rw [List.filterMap_filter]
  apply List.filterMap_congr
  intro row member
  cases made : make row with
  | none => exact ite_self _
  | some value => rw [covers row member value made, if_pos rfl]

end Part

namespace Store

variable {store left right : Store} {projectId id : Int}

/-- No call and no link leads from one project to another. -/
structure Separate (store : Store) : Prop where
  calls : ∀ call ∈ store.calls.rows, store.owns call.projectId call.callerId = true ∧
    ∀ callee, call.calleeId = some callee → store.owns call.projectId callee = true
  links : ∀ edge ∈ store.parents.rows, ∀ parent, edge.parentId = some parent →
    ∃ owner, store.owns owner edge.childId = true ∧ store.owns owner parent = true

structure SameProject (projectId : Int) (left right : Store) : Prop where
  project : right.projects.find? projectId = left.projects.find? projectId
  entities : right.entities.rows.filter (·.projectId == projectId) =
    left.entities.rows.filter (·.projectId == projectId)
  calls : right.calls.rows.filter (·.projectId == projectId) =
    left.calls.rows.filter (·.projectId == projectId)
  parents : right.parentRowsOf projectId = left.parentRowsOf projectId

structure SameAnswersAbout (projectId : Int) (left right : Store) : Prop where
  entity : ∀ id, left.owns projectId id = true → right.entity? id = left.entity? id
  entities : right.entitiesOf projectId = left.entitiesOf projectId
  named : ∀ symbol kinds,
    right.entitiesNamed projectId symbol kinds = left.entitiesNamed projectId symbol kinds
  neighbors : ∀ direction id, left.owns projectId id = true →
    right.neighbors direction id = left.neighbors direction id
  callSites : ∀ caller callee, left.owns projectId caller = true →
    right.callSites caller callee = left.callSites caller callee
  callTree : ∀ limits symbol direction depth,
    right.callTree limits projectId symbol direction depth =
      left.callTree limits projectId symbol direction depth
  callGraph : ∀ limits symbol depth,
    right.callGraph limits projectId symbol depth = left.callGraph limits projectId symbol depth
  reverseCallGraph : ∀ limits symbol depth,
    right.reverseCallGraph limits projectId symbol depth =
      left.reverseCallGraph limits projectId symbol depth
  parents : ∀ id, left.owns projectId id = true → right.parentsOf id = left.parentsOf id
  children : ∀ id, left.owns projectId id = true → right.childrenOf id = left.childrenOf id
  childrenNaming : ∀ symbol,
    right.childrenNaming projectId symbol = left.childrenNaming projectId symbol
  hierarchy : right.parentEdgesOf projectId = left.parentEdgesOf projectId
  hierarchyStats : right.hierarchyStats projectId = left.hierarchyStats projectId
  stats : right.stats projectId = left.stats projectId

theorem Separate.caller_project (separate : store.Separate) {call : CallRow}
    (member : call ∈ store.calls.rows) (owned : store.owns projectId call.callerId = true) :
    call.projectId = projectId :=
  owner_unique (separate.calls call member).1 owned

theorem Separate.callee_project (separate : store.Separate) {call : CallRow}
    (member : call ∈ store.calls.rows) (known : call.calleeId = some id)
    (owned : store.owns projectId id = true) : call.projectId = projectId :=
  owner_unique ((separate.calls call member).2 id known) owned

theorem Separate.child_owned (separate : store.Separate) {edge : ParentRow}
    (member : edge ∈ store.parents.rows) (known : edge.parentId = some id)
    (owned : store.owns projectId id = true) : store.owns projectId edge.childId = true := by
  obtain ⟨owner, child, parent⟩ := separate.links edge member id known
  rw [← owner_unique parent owned]
  exact child

/-- The neighbours of a declaration belong to its project. -/
theorem Separate.neighbors (separate : store.Separate) {direction : Direction}
    {neighbors : List Neighbor} {other : Int} (owned : store.owns projectId id = true)
    (success : store.neighbors direction id = .ok neighbors)
    (known : ∃ neighbor ∈ neighbors, neighbor.entityId = some other) :
    store.owns projectId other = true := by
  cases direction with
  | callers =>
      obtain ⟨⟨call, member, rfl, callee⟩, -⟩ := (callersOf_known success).1 known
      rw [← separate.callee_project member callee owned]
      exact (separate.calls call member).1
  | callees =>
      obtain ⟨call, member, rfl, callee⟩ := (calleesOf_known success).1 known
      rw [← separate.caller_project member owned]
      exact (separate.calls call member).2 other callee

/-- A query by symbol starts from a declaration of the project. -/
theorem root?_owned {symbol : String} {entity : Entity}
    (found : store.root? projectId symbol = .ok (some entity)) :
    store.owns projectId entity.id = true := by
  obtain ⟨row, member, rfl, read⟩ := root?_row found
  rw [EntityRow.read_id read]
  exact owns_row member

theorem rootRows_eq (store : Store) (projectId : Int) :
    store.rootRows projectId = (store.entities.rows.filter (·.projectId == projectId)).filter
      fun row => isRootKind row.kind && !(store.parentRowsOf projectId).any (·.childId == row.id) := by
  rw [rootRows, List.filter_filter]
  apply List.filter_congr
  intro row member
  by_cases own : row.projectId = projectId
  · have owned : store.owns projectId row.id = true := own ▸ owns_row member
    have named : (store.parentRowsOf projectId).any (·.childId == row.id) =
        store.parents.rows.any (·.childId == row.id) := by
      rw [parentRowsOf, List.any_filter]
      congr 1
      funext edge
      by_cases child : edge.childId = row.id
      · rw [child, owned, Bool.true_and]
      · rw [beq_false_of_ne child, Bool.and_false]
    rw [named, own, beq_self_eq_true, Bool.true_and, Bool.and_true]
  · rw [beq_false_of_ne own, Bool.false_and, Bool.false_and, Bool.and_false]

def ListsWithin (projectId : Int) (accept : EntityRow → ParentRow → Bool) (store : Store) : Prop :=
  ∀ edge ∈ store.parents.rows, ∀ child, store.entities.find? edge.childId = some child →
    accept child edge = true → store.owns projectId edge.childId = true

theorem childRows_eq {accept : EntityRow → ParentRow → Bool}
    (within : store.ListsWithin projectId accept) :
    store.childRows accept = (store.parentRowsOf projectId).filterMap fun edge =>
      (store.entities.find? edge.childId).bind fun child =>
        if accept child edge then
          some { childId := edge.childId, symbol := child.symbol, heritage := edge.heritage }
        else none := by
  symm
  apply filterMap_part
  intro edge member link made
  obtain ⟨child, found, kept⟩ := Option.bind_eq_some_iff.1 made
  split at kept
  next accepted => exact within edge member child found accepted
  next => cases kept

namespace SameProject

variable (same : SameProject projectId left right)
include same

theorem owns (id : Int) : right.owns projectId id = left.owns projectId id := by
  rw [Bool.eq_iff_iff, owns_iff, owns_iff]
  refine exists_congr fun key => and_congr_left fun owned => ?_
  exact identifies_congr same.entities owned

theorem find?_entity (owned : left.owns projectId id = true) :
    right.entities.find? id = left.entities.find? id := by
  obtain ⟨-, ⟨row, member, numbered, rfl⟩, own⟩ := owns_iff.1 owned
  have listed : row ∈ right.entities.rows.filter (·.projectId == projectId) := by
    rw [same.entities]
    exact List.mem_filter.2 ⟨member, beq_iff_eq.2 own⟩
  rw [Table.find?_eq_some_iff.2 ⟨member, numbered⟩,
    Table.find?_eq_some_iff.2 ⟨(List.mem_filter.1 listed).1, numbered⟩]

theorem entity? (owned : left.owns projectId id = true) : right.entity? id = left.entity? id := by
  rw [Store.entity?, Store.entity?, same.find?_entity owned]

theorem childRows {accept : EntityRow → ParentRow → Bool}
    (within : left.ListsWithin projectId accept) (within' : right.ListsWithin projectId accept) :
    right.childRows accept = left.childRows accept := by
  rw [childRows_eq within, childRows_eq within', same.parents]
  apply List.filterMap_congr
  intro edge member
  rw [same.find?_entity (List.mem_filter.1 member).2]

theorem childrenNaming (symbol : String) :
    right.childrenNaming projectId symbol = left.childrenNaming projectId symbol := by
  have within : ∀ store : Store, store.ListsWithin projectId
      fun child edge => child.projectId == projectId && edge.symbol == symbol := by
    intro store edge _ child found accepted
    obtain ⟨member, numbered⟩ := Table.find?_eq_some_iff.1 found
    rw [← numbered, ← beq_iff_eq.1 (Bool.and_eq_true_iff.1 accepted).1]
    exact owns_row member
  exact congrArg (List.mapM ChildRow.read) (same.childRows (within left) (within right))

theorem parentEdgesOf : right.parentEdgesOf projectId = left.parentEdgesOf projectId := by
  rw [Store.parentEdgesOf, Store.parentEdgesOf, same.parents]

theorem rootRows : right.rootRows projectId = left.rootRows projectId := by
  rw [rootRows_eq, rootRows_eq, same.entities, same.parents]

theorem entitiesOf : right.entitiesOf projectId = left.entitiesOf projectId := by
  rw [Store.entitiesOf, Store.entitiesOf, same.entities]

theorem hierarchyStats : right.hierarchyStats projectId = left.hierarchyStats projectId := by
  rw [Store.hierarchyStats, Store.hierarchyStats, same.parents, same.parentEdgesOf, same.entitiesOf,
    same.rootRows]

theorem stats : right.stats projectId = left.stats projectId := by
  have unresolved : ∀ store : Store, store.parents.rows.filter (store.isOpen projectId) =
      (store.parentRowsOf projectId).filter (·.parentId.isNone) := by
    intro store
    rw [parentRowsOf, List.filter_filter]
    rfl
  simp only [Store.stats, same.entities, same.calls, unresolved, same.parents]

variable (before : left.Separate) (after : right.Separate)
include before after

theorem filter_calls {test : CallRow → Bool}
    (within : ∀ call, test call = true → left.owns projectId call.callerId = true) :
    right.calls.rows.filter test = left.calls.rows.filter test := by
  have coversLeft : ∀ call ∈ left.calls.rows, test call = true → (call.projectId == projectId) = true :=
    fun call member passes => beq_iff_eq.2 (before.caller_project member (within call passes))
  have coversRight : ∀ call ∈ right.calls.rows, test call = true →
      (call.projectId == projectId) = true := by
    intro call member passes
    apply beq_iff_eq.2
    apply after.caller_project member
    rw [same.owns]
    exact within call passes
  rw [← filter_part coversLeft, ← filter_part coversRight, same.calls]

theorem callSites (owned : left.owns projectId id = true) (callee : Int) :
    right.callSites id callee = left.callSites id callee := by
  unfold Store.callSites
  rw [same.filter_calls before after]
  intro call passes
  rw [beq_iff_eq.1 (Bool.and_eq_true_iff.1 passes).1]
  exact owned

theorem callersOf (owned : left.owns projectId id = true) :
    right.callersOf id = left.callersOf id := by
  have covers : ∀ {store : Store}, store.Separate → store.owns projectId id = true →
      ∀ call ∈ store.calls.rows, ∀ value,
        (if call.calleeId == some id then
          (store.entities.find? call.callerId).map fun caller => (caller.symbol, call)
        else none) = some value → (call.projectId == projectId) = true := by
    intro store separate owned call member value made
    split at made
    next calls => exact beq_iff_eq.2 (separate.callee_project member (beq_iff_eq.1 calls) owned)
    next => cases made
  unfold Store.callersOf
  dsimp only
  rw [← filterMap_part (covers before owned), ← filterMap_part (covers after (same.owns id ▸ owned)),
    same.calls]
  congr 2
  apply List.filterMap_congr
  -- The caller belongs to the project of the call, and is found in either store.
  intro call listed
  obtain ⟨member, own⟩ := List.mem_filter.1 listed
  have caller := (before.calls call member).1
  rw [beq_iff_eq.1 own] at caller
  rw [same.find?_entity caller]

theorem neighbors (owned : left.owns projectId id = true) (direction : Direction) :
    right.neighbors direction id = left.neighbors direction id := by
  cases direction with
  | callers => exact same.callersOf before after owned
  | callees =>
      rw [Store.neighbors, Store.neighbors, calleesOf, calleesOf, same.filter_calls before after]
      intro call passes
      rw [beq_iff_eq.1 passes]
      exact owned

theorem childrenOf (owned : left.owns projectId id = true) :
    right.childrenOf id = left.childrenOf id := by
  have within : ∀ {store : Store}, store.Separate → store.owns projectId id = true →
      store.ListsWithin projectId fun _ edge => edge.parentId == some id :=
    fun separate owned edge member child found accepted =>
      separate.child_owned member (beq_iff_eq.1 accepted) owned
  exact congrArg (List.mapM ChildRow.read)
    (same.childRows (within before owned) (within after (same.owns id ▸ owned)))

omit before after in
theorem parentsOf (owned : left.owns projectId id = true) :
    right.parentsOf id = left.parentsOf id := by
  have own : ∀ {store : Store}, store.owns projectId id = true →
      (store.parentRowsOf projectId).filter (·.childId == id) =
        store.parents.rows.filter (·.childId == id) := by
    intro store owned
    apply filter_part
    intro edge _ child
    rw [beq_iff_eq.1 child]
    exact owned
  rw [Store.parentsOf, Store.parentsOf, ← own owned, ← own (same.owns id ▸ owned), same.parents]

/-- Inside the project the stores agree, and no call leads out of it. -/
theorem agree : Agree (fun id => left.owns projectId id = true) left right where
  entity _ owned := (same.entity? owned).symm
  neighbors direction id owned := by
    refine ⟨(same.neighbors before after owned direction).symm, ?_⟩
    intro neighbors success neighbor member other known
    exact before.neighbors owned success ⟨neighbor, member, known⟩

omit before after in
theorem root (symbol : String) :
    Matches (fun found => ∀ entity, found = some entity → left.owns projectId entity.id = true)
      (left.root? projectId symbol) (right.root? projectId symbol) := by
  refine ⟨?_, fun found success entity known => root?_owned (known ▸ success)⟩
  rw [root?, root?, entitiesNamed_congr same.entities]

/-- Where projects are separate, the rows of a project determine all answers about it. -/
theorem answers : SameAnswersAbout projectId left right where
  entity _ owned := same.entity? owned
  entities := same.entitiesOf
  named := entitiesNamed_congr same.entities
  neighbors direction _ owned := same.neighbors before after owned direction
  callSites _ callee owned := same.callSites before after owned callee
  callTree limits symbol direction depth :=
    ((same.agree before after).callTree (same.root symbol) limits direction depth).symm
  callGraph limits symbol _ :=
    ((same.agree before after).around (same.root symbol) limits.clamped _ _).symm
  reverseCallGraph limits symbol _ :=
    ((same.agree before after).around (same.root symbol) limits.clamped _ _).symm
  parents _ owned := same.parentsOf owned
  children _ owned := same.childrenOf before after owned
  childrenNaming := same.childrenNaming
  hierarchy := same.parentEdgesOf
  hierarchyStats := same.hierarchyStats
  stats := same.stats

end SameProject

end Store

namespace Refresh.Stages

open Store Extract

variable {store after : Store} {name rootPath : String} {scanned : Nat} {files : List FileFacts}
  {report : RefreshReport} {owner : Int}
  (stages : Stages store name rootPath scanned files report after)
include stages

theorem foreign_project (apart : owner ≠ stages.project.id) :
    after.projects.find? owner = store.projects.find? owner := by
  apply Option.ext
  intro project
  rw [Table.find?_eq_some_iff, Table.find?_eq_some_iff, stages.mem_projects]
  refine and_congr_left fun numbered => ?_
  have other : project.id ≠ stages.project.id := fun same => apart (numbered.symm.trans same)
  constructor
  · rintro (⟨member, -⟩ | rfl)
    · exact member
    · exact absurd rfl other
  · exact fun member => Or.inl ⟨member, other⟩

theorem foreign_parents (orderly : store.Orderly) (separate : store.Separate)
    (apart : owner ≠ stages.project.id) :
    after.parentRowsOf owner = store.parentRowsOf owner := by
  refine rows_eq_of_mem_iff (after.parents.ordered.filter _) (store.parents.ordered.filter _) ?_
  intro edge
  rw [parentRowsOf, parentRowsOf, List.mem_filter, List.mem_filter,
    stages.owns_foreign orderly.keyed apart]
  refine and_congr_left fun owned => ?_
  have foreign := owns_apart ((stages.owns_foreign orderly.keyed apart).2 owned) apart
  have kept : edge ∈ after.parents.rows ↔ edge ∈ stages.purged.parents.rows := by
    have lists := congrArg (edge ∈ ·) (stages.kept_parents orderly.keyed)
    simpa only [List.mem_filter, foreign, Bool.not_false, and_true, eq_iff_iff,
      (replaceCalls_frame stages.calls).2.2] using lists
  rw [kept, ← stages.stored_parents]
  refine ⟨fun member => (purgeStale_keeps stages.purges member).1, fun member => ?_⟩
  refine (purgeStale_parent stages.purges fun id ends => ?_).2 member
  -- A linked parent belongs to the project of the child, so not to the one that is purged.
  have own : store.owns owner id = true := by
    rcases ends with rfl | known
    · exact owned
    · obtain ⟨another, child, parent⟩ := separate.links edge (stages.stored_parents ▸ member) id known
      rw [← owner_unique child owned]
      exact parent
  exact owns_apart (stages.stored_owns own) apart

theorem same_project (orderly : store.Orderly) (separate : store.Separate)
    (apart : owner ≠ stages.project.id) : SameProject owner store after where
  project := stages.foreign_project apart
  entities := stages.foreign_entities orderly.keyed apart
  calls := stages.foreign_calls orderly apart
  parents := stages.foreign_parents orderly separate apart

end Refresh.Stages

namespace Store

theorem refreshAll_separate (requests : List RefreshRequest) : (empty.refreshAll requests).Separate where
  calls := (empty_orderly.refreshAll requests).inside
  links := by
    have linked : (empty.refreshAll requests).AllLinked :=
      AllLinked.replay (fun edge member => by simp [empty] at member) _
    intro edge member parent known
    obtain ⟨child, stored, ⟨key, stands, same, -⟩, -⟩ := linked edge member parent known
    exact ⟨child.projectId, owns_iff.2 ⟨child, stored, rfl⟩, owns_iff.2 ⟨key, stands, same⟩⟩

/-- However often and in whatever order projects were refreshed, one more refresh leaves the rows of all
other projects, with their numbers and links, and so it changes no answer about them. Its own project is
the one of its name. -/
theorem refresh_leaves_other_projects (requests : List RefreshRequest) (request : RefreshRequest) :
    ∃ report after,
      (empty.refreshAll requests).refresh request.name request.rootPath request.scanned
        request.files = .ok (report, after) ∧
      (∀ other ∈ (empty.refreshAll requests).projects.rows,
        other.id = report.projectId ↔ other.name = request.name) ∧
      (∀ projectId, projectId ≠ report.projectId →
        SameProject projectId (empty.refreshAll requests) after ∧
          SameAnswersAbout projectId (empty.refreshAll requests) after) := by
  have orderly : (empty.refreshAll requests).Orderly := empty_orderly.refreshAll requests
  have separate := refreshAll_separate requests
  obtain ⟨report, after, success⟩ := refresh_succeeds (empty.refreshAll requests) request.name
    request.rootPath request.scanned request.files
  obtain ⟨stages⟩ := refresh_stages success
  have separate' : after.Separate := by
    have longer := refreshAll_separate (requests ++ [request])
    rw [refreshAll_append, refreshAll_cons success] at longer
    exact longer
  refine ⟨report, after, success, ?_, ?_⟩
  · intro other member
    rw [stages.owner_eq]
    exact orderly.putProject_apart stages.moves member
  · intro projectId apart
    rw [stages.owner_eq] at apart
    have same := stages.same_project orderly separate apart
    exact ⟨same, same.answers separate separate'⟩

/-! Two projects hold the same two classes, one the parent of the other. Then one of them loses its
file. -/

def farmFile : Extract.FileFacts where
  filename := "animals.py"
  language := .python
  definitions := [⟨"Animal", .cls, 1, 2, none, []⟩, ⟨"Dog", .cls, 4, 5, none, [⟨"Animal", .extension⟩]⟩]

theorem farm_kept_when_zoo_closes :
    ∃ report after,
      (empty.refreshAll [⟨"farm", "/farm", 1, [farmFile]⟩, ⟨"zoo", "/zoo", 1, [farmFile]⟩]).refresh
        "zoo" "/zoo" 0 [] = .ok (report, after) ∧
      report.projectId = 2 ∧
      after.parentEdgesOf 1 = .ok [⟨1, 2, some 1, "Animal", .extension⟩] ∧
      after.childrenOf 1 = .ok [⟨2, "Dog", .extension⟩] := by
  obtain ⟨report, after, success, named, others⟩ := refresh_leaves_other_projects
    [⟨"farm", "/farm", 1, [farmFile]⟩, ⟨"zoo", "/zoo", 1, [farmFile]⟩] ⟨"zoo", "/zoo", 0, []⟩
  have projects : (empty.refreshAll
      [⟨"farm", "/farm", 1, [farmFile]⟩, ⟨"zoo", "/zoo", 1, [farmFile]⟩]).projects.rows =
        [⟨1, "farm", "/farm", 1⟩, ⟨2, "zoo", "/zoo", 1⟩] := by cbv
  rw [projects] at named
  have zoo : report.projectId = 2 := ((named ⟨2, "zoo", "/zoo", 1⟩ (by simp)).2 rfl).symm
  obtain ⟨-, answers⟩ := others 1 (by rw [zoo]; decide)
  refine ⟨report, after, success, zoo, ?_, ?_⟩
  · rw [answers.hierarchy]
    cbv
  · rw [answers.children 1 (by cbv)]
    cbv

end Store

end DeclGraph
