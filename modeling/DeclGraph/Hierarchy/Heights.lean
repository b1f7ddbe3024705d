import Std.Data.HashMap

/-! Heights in a graph of parents. The height of a node is the number of nodes on its longest way up.
Nodes are settled from the top: first those without parents, then those all of whose parents are
settled. A node from which a cycle can be reached is never settled. -/
namespace DeclGraph.Hierarchy

structure Lineage where
  nodes : List Int
  parents : Int → List Int
  children : Int → List Int

structure Settling where
  pending : Std.HashMap Int Nat
  ready : List Int
  height : Std.HashMap Int Nat

namespace Settling

def start (lineage : Lineage) : Settling where
  pending := Std.HashMap.ofList (lineage.nodes.map fun node => (node, (lineage.parents node).length))
  ready := lineage.nodes.filter fun node => (lineage.parents node).isEmpty
  height := {}

def release (settling : Settling) (child : Int) : Settling :=
  match settling.pending[child]? with
  | none => settling
  | some count =>
    { settling with
      -- One parent less to wait for.
      pending := settling.pending.insert child (count - 1)
      ready := if count - 1 = 0 then child :: settling.ready else settling.ready }

def settle (lineage : Lineage) (settling : Settling) (node : Int) : Settling :=
  let above := ((lineage.parents node).filterMap fun parent => settling.height[parent]?).foldl max 0
  (lineage.children node).foldl release
    { settling with height := settling.height.insert node (above + 1) }

def run (lineage : Lineage) : Nat → Settling → Settling
  | 0, settling => settling
  | fuel + 1, settling =>
    match settling.ready with
    | [] => settling
    | node :: rest => run lineage fuel (settle lineage { settling with ready := rest } node)

end Settling

/-- The heights of all nodes from which no cycle can be reached. Each node is settled at most once,
so the number of nodes is fuel enough. -/
def heights (lineage : Lineage) : Std.HashMap Int Nat :=
  (Settling.run lineage lineage.nodes.length (Settling.start lineage)).height

end DeclGraph.Hierarchy
