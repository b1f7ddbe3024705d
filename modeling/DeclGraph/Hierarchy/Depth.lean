import Std.Data.HashSet
import DeclGraph.Entity
import DeclGraph.Hierarchy.Heights

/-! The depth of a hierarchy: the number of nodes on the longest way up from any of its declarations
that meets no node twice. Where no cycle can be reached this is a height; elsewhere the ways up are
searched one by one, with a budget of steps that all searches share. -/
namespace DeclGraph.Hierarchy

structure Links where
  nodes : List Int := []
  parents : Std.HashMap Int (List Int) := {}
  children : Std.HashMap Int (List Int) := {}

namespace Links

def addNode (links : Links) (node : Int) : Links :=
  if links.nodes.contains node then links else { links with nodes := links.nodes ++ [node] }

def addEdge (links : Links) (child parent : Int) : Links :=
  let above := links.parents.getD child []
  let links :=
    if above.contains parent then links
    else
      { links with
        parents := links.parents.insert child (above ++ [parent])
        children := links.children.insert parent (links.children.getD parent [] ++ [child]) }
  (links.addNode child).addNode parent

def ofEdges (entities : List Int) (edges : List ParentEdge) : Links :=
  edges.foldl
    (fun links edge =>
      match edge.parentId with
      | none => links
      | some parent => links.addEdge edge.childId parent)
    (entities.foldl addNode {})

def lineage (links : Links) : Lineage where
  nodes := links.nodes
  parents node := links.parents.getD node []
  children node := links.children.getD node []

end Links

structure Search where
  budget : Nat
  best : Nat

/-- How many moves the nodes of a way have left: one for each parent, and one back. -/
def movesLeft (parents : Int → List Int) : List (Int × Nat) → Nat
  | [] => 0
  | (node, next) :: below => (parents node).length - next + 1 + movesLeft parents below

/-- Searches on from a way up. The stack holds its nodes, the last first, each with the number of
parents that have been tried. A settled parent adds its height. Any other one that is not on the way
costs a step and prolongs the way. -/
def ascend (parents : Int → List Int) (height : Int → Option Nat) (stack : List (Int × Nat))
    (onWay : Std.HashSet Int) (search : Search) : Search :=
  match stack with
  | [] => search
  | (node, next) :: below =>
    if more : next < (parents node).length then
      let parent := (parents node)[next]
      let stack := (node, next + 1) :: below
      match height parent with
      | some above =>
        ascend parents height stack onWay
          { search with best := max search.best (stack.length + above) }
      | none =>
        if 0 < search.budget ∧ !onWay.contains parent then
          ascend parents height ((parent, 0) :: stack) (onWay.insert parent)
            { budget := search.budget - 1, best := max search.best (stack.length + 1) }
        else ascend parents height stack onWay search
    else ascend parents height below (onWay.erase node) search
termination_by (search.budget, movesLeft parents stack)
decreasing_by
  · exact Prod.Lex.right _ (by simp only [movesLeft]; omega)
  · exact Prod.Lex.left _ _ (by omega)
  · exact Prod.Lex.right _ (by simp only [movesLeft]; omega)
  · exact Prod.Lex.right _ (by simp only [movesLeft]; omega)

def cycleSearchBudget : Nat := 1000000

def searchFrom (links : Links) (height : Std.HashMap Int Nat) (search : Search) (start : Int) :
    Search :=
  match height[start]? with
  | some h => { search with best := max search.best h }
  | none =>
    let found := ascend links.lineage.parents (height[·]?) [(start, 0)] (Std.HashSet.ofList [start])
      { budget := search.budget, best := 1 }
    { budget := found.budget, best := max search.best found.best }

def search (entities : List Int) (edges : List ParentEdge) : Search :=
  let links := Links.ofEdges entities edges
  entities.foldl (searchFrom links (heights links.lineage))
    { budget := cycleSearchBudget, best := 0 }

def depth (entities : List Int) (edges : List ParentEdge) : Nat :=
  (search entities edges).best

end DeclGraph.Hierarchy
