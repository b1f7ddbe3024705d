import DeclGraph.Store.Parents
import DeclGraph.Store.Calls

/-! Counts of what a store holds for a project. -/
namespace DeclGraph

structure GraphStats where
  entities : Nat
  files : Nat
  calls : Nat
  parentEdges : Nat
  unresolvedParents : Nat
  deriving DecidableEq, Repr

namespace Store

def stats (store : Store) (projectId : Int) : GraphStats :=
  let entities := store.entities.rows.filter (·.projectId == projectId)
  { entities := entities.length
    files := (entities.map (·.filename)).eraseDups.length
    calls := (store.calls.rows.filter (·.projectId == projectId)).length
    parentEdges := (store.parentRowsOf projectId).length
    unresolvedParents := (store.parents.rows.filter (store.isOpen projectId)).length }

end Store

end DeclGraph
