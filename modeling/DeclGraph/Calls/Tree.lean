import DeclGraph.Calls.Walk

/-! Caller and callee trees. A tree unfolds the call graph from a root in one direction. It ends at a
declaration that is above itself already, at the depth limit, and where the budget runs out. -/
namespace DeclGraph

inductive Ending where
  | whole
  /-- The node is above itself already and was not unfolded again. -/
  | loop
  /-- There are more than those listed. -/
  | truncated
  deriving DecidableEq, Repr

inductive CallNode where
  | known (entity : Entity) (lines : List UInt32) (ending : Ending) (children : List CallNode)
  | unknown (symbol : String) (lines : List UInt32)

structure CallTree where
  direction : Direction
  depth : Nat
  root : CallNode
  nodeCount : Nat

namespace CallTree

structure Walk where
  trail : Trail
  budget : Budget

structure Unfolding where
  children : List CallNode
  cut : Bool
  walk : Walk

def Unfolding.ending (unfolding : Unfolding) : Ending :=
  if unfolding.cut then .truncated else .whole

namespace Walk

def reach (store : Store) (descend : Int → Walk → Except Error Unfolding) (group : NeighborGroup)
    (walk : Walk) : Except Error (CallNode × Walk) :=
  match group.entityId with
  | none => .ok (.unknown group.symbol group.lines, walk)
  | some id => do
    match ← store.entity? id with
    | none => .ok (.unknown group.symbol group.lines, walk)
    | some entity =>
      -- A declaration above itself is not unfolded again.
      if walk.trail.contains id then .ok (.known entity group.lines .loop [], walk)
      else do
        let unfolding ← descend id walk
        .ok (.known entity group.lines unfolding.ending unfolding.children, unfolding.walk)

def reachAll (store : Store) (descend : Int → Walk → Except Error Unfolding) :
    List NeighborGroup → List CallNode → Walk → Except Error Unfolding
  | [], children, walk => .ok ⟨children, false, walk⟩
  | group :: rest, children, walk =>
    match walk.budget.take? with
    | none => .ok ⟨children, true, walk⟩
    | some budget => do
      let (node, walk) ← reach store descend group { walk with budget }
      reachAll store descend rest (children ++ [node]) walk

/-- On the last level nothing is listed, but whether there is something to list is told. -/
def stay (store : Store) (direction : Direction) (id : Int) (walk : Walk) :
    Except Error Unfolding := do
  .ok ⟨[], !(← store.neighbors direction id).isEmpty, walk⟩

def enter (expand : Int → Walk → Except Error Unfolding) (id : Int) (walk : Walk) :
    Except Error Unfolding := do
  let unfolding ← expand id { walk with trail := (walk.trail.enter id).2 }
  .ok { unfolding with
    walk := { unfolding.walk with trail := unfolding.walk.trail.leave } }

def expand (store : Store) (direction : Direction) : Nat → Int → Walk → Except Error Unfolding
  | 0, id, walk => do
    reachAll store (stay store direction) (← store.groups direction id) [] walk
  | below + 1, id, walk => do
    reachAll store (enter (expand store direction below)) (← store.groups direction id) [] walk

end Walk

def build (store : Store) (direction : Direction) (depth : Nat) (budget : Budget) (root : Entity) :
    Except Error CallTree := do
  let walk : Walk := ⟨(Trail.enter [] root.id).2, budget.take?.getD budget⟩
  let unfolding ← walk.expand store direction (depth - 1) root.id
  .ok
    { direction
      depth
      root := .known root [] unfolding.ending unfolding.children
      nodeCount := unfolding.walk.budget.used }

end CallTree

def Limits.treeDepth (limits : Limits) (requested : UInt32) : Nat :=
  let requested := if requested = 0 then limits.defaultDepth else requested
  effectiveDepth requested.toNat limits.maxTreeDepth.toNat

def Store.callTree (store : Store) (limits : Limits) (projectId : Int) (symbol : String)
    (direction : Direction) (depth : UInt32) : Except Error (Outcome CallTree) := do
  let limits := limits.clamped
  match ← store.root? projectId symbol with
  | none => .ok (.rootNotFound symbol)
  | some root => do
    let tree ← CallTree.build store direction (limits.treeDepth depth)
      (.ofLimit limits.maxNodes.toNat) root
    .ok (.found tree)

end DeclGraph
