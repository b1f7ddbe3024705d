import DeclGraph.Hierarchy.Depth
import DeclGraph.Store.Parents

/-! Questions about the hierarchy of a project. -/
namespace DeclGraph

structure ParentLink where
  heritage : Heritage
  symbol : String
  parentId : Option Int
  deriving DecidableEq, Repr

structure ChildLink where
  childId : Int
  symbol : String
  heritage : Heritage
  deriving DecidableEq, Repr

structure ChildRow where
  childId : Int
  symbol : String
  heritage : String
  deriving DecidableEq, Repr

def ChildRow.read (row : ChildRow) : Except Error ChildLink := do
  let heritage ← readHeritage row.heritage 2
  .ok { childId := row.childId, symbol := row.symbol, heritage }

structure HierarchyStats where
  byHeritage : List (String × Nat)
  /-- Classes, structs and interfaces that name no parent. A trait is no root. -/
  roots : Nat
  maxDepth : Nat
  totalEdges : Nat
  unresolvedEdges : Nat
  deriving DecidableEq, Repr

namespace Store

def parentsOf (store : Store) (childId : Int) : Except Error (List ParentLink) := do
  let edges ← (store.parents.rows.filter (·.childId == childId)).mapM ParentRow.read
  .ok (edges.map fun edge =>
    { heritage := edge.heritage, symbol := edge.symbol, parentId := edge.parentId })

def childRows (store : Store) (accept : EntityRow → ParentRow → Bool) : List ChildRow :=
  store.parents.rows.filterMap fun row =>
    (store.entities.find? row.childId).bind fun child =>
      if accept child row then
        some { childId := row.childId, symbol := child.symbol, heritage := row.heritage }
      else none

def childrenOf (store : Store) (parentId : Int) : Except Error (List ChildLink) :=
  (store.childRows fun _ row => row.parentId == some parentId).mapM ChildRow.read

def childrenNaming (store : Store) (projectId : Int) (symbol : String) :
    Except Error (List ChildLink) :=
  (store.childRows fun child row => child.projectId == projectId && row.symbol == symbol).mapM
    ChildRow.read

def isRootKind (kind : String) : Bool :=
  kind == "class" || kind == "struct" || kind == "interface"

def rootRows (store : Store) (projectId : Int) : List EntityRow :=
  store.entities.rows.filter fun row =>
    row.projectId == projectId && isRootKind row.kind &&
      !store.parents.rows.any (·.childId == row.id)

def heritageCounts (rows : List ParentRow) : List (String × Nat) :=
  let texts := rows.map (·.heritage)
  texts.eraseDups.map fun text => (text, texts.count text)

/-- The figures of a hierarchy. Counts go by what is stored; only the listings that the depth is taken
from are read. -/
def hierarchyStats (store : Store) (projectId : Int) : Except Error HierarchyStats := do
  let counts := heritageCounts (store.parentRowsOf projectId)
  let edges ← store.parentEdgesOf projectId
  let entities ← store.entitiesOf projectId
  let types := (entities.filter (·.kind.isType)).map (·.id)
  .ok
    { byHeritage := counts
      roots := (store.rootRows projectId).length
      maxDepth := Hierarchy.depth types edges
      totalEdges := counts.foldl (fun total entry => total + entry.2) 0
      unresolvedEdges := (edges.filter (·.parentId.isNone)).length }

end Store

end DeclGraph
