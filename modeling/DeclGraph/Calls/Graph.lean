import DeclGraph.Calls.Walk

/-! Flat call graphs. A graph grows around its root level by level, in one direction or in both; every
node and edge is labelled with its distance from the root in each direction it was reached by. -/
namespace DeclGraph

structure Labels where
  caller : Option Nat := none
  callee : Option Nat := none
  deriving DecidableEq, Repr

namespace Labels

def get (labels : Labels) : Direction → Option Nat
  | .callers => labels.caller
  | .callees => labels.callee

def put (labels : Labels) (direction : Direction) (distance : Nat) : Labels :=
  match direction with
  | .callers => { labels with caller := labels.caller.or (some distance) }
  | .callees => { labels with callee := labels.callee.or (some distance) }

def unset (labels : Labels) : Nat :=
  (if labels.caller.isNone then 1 else 0) + if labels.callee.isNone then 1 else 0

theorem unset_put {labels : Labels} {direction : Direction} (missing : labels.get direction = none)
    (distance : Nat) : (labels.put direction distance).unset + 1 = labels.unset := by
  obtain ⟨caller, callee⟩ := labels
  cases direction with
  | callers =>
      cases missing
      exact Nat.add_right_comm 0 _ 1
  | callees =>
      cases missing
      rfl

end Labels

structure GraphNode where
  entity : Entity
  labels : Labels
  deriving DecidableEq, Repr

def GraphNode.label (node : GraphNode) (direction : Direction) (distance : Nat) : GraphNode :=
  { node with labels := node.labels.put direction distance }

structure GraphEdge where
  callerId : Int
  calleeId : Int
  lines : List UInt32
  labels : Labels
  deriving DecidableEq, Repr

def GraphEdge.label (edge : GraphEdge) (direction : Direction) (distance : Nat) : GraphEdge :=
  { edge with labels := edge.labels.put direction distance }

structure CallGraph where
  root : Int
  maxDepth : Nat
  nodes : List GraphNode
  edges : List GraphEdge
  truncated : Bool
  deriving DecidableEq, Repr

namespace CallGraph

structure Visit where
  id : Int
  direction : Direction
  deriving DecidableEq, Repr

def ends (visit : Visit) (other : Int) : Int × Int :=
  match visit.direction with
  | .callers => (other, visit.id)
  | .callees => (visit.id, other)

structure Arrival extends Visit where
  distance : Nat
  deriving DecidableEq, Repr

structure Exploration where
  nodes : Indexed Int GraphNode
  edges : Indexed (Int × Int) GraphEdge
  queue : List Arrival
  budget : Budget
  full : Bool := false

namespace Exploration

def ofRoot (directions : List Direction) (budget : Budget) (root : Entity) : Exploration where
  nodes := Indexed.push ⟨[], []⟩ root.id
    ⟨root, directions.foldl (fun labels direction => labels.put direction 0) {}⟩
  edges := ⟨[], []⟩
  queue := directions.map fun direction => ⟨⟨root.id, direction⟩, 0⟩
  budget := budget.take?.getD budget

/-- Labels the edge to the node at a place, and the node. A node that had no label in the direction
is put into the queue. -/
def connect (walk : Exploration) (arrival : Arrival) (other : Int) (lines : List UInt32)
    (place : Nat) : Exploration :=
  let next := arrival.distance + 1
  let (callerId, calleeId) := ends arrival.toVisit other
  let edges := walk.edges.upsert (callerId, calleeId)
    (·.label arrival.direction next)
    ⟨callerId, calleeId, lines, Labels.put {} arrival.direction next⟩
  match walk.nodes.entries[place]? with
  | none => { walk with edges }
  | some node =>
    match node.labels.get arrival.direction with
    | some _ => { walk with edges }
    | none =>
      { walk with
        edges
        nodes := walk.nodes.modify place (·.label arrival.direction next)
        queue := walk.queue ++ [⟨⟨other, arrival.direction⟩, next⟩] }

def follow (store : Store) (arrival : Arrival) (walk : Exploration) (group : NeighborGroup) :
    Except Error Exploration :=
  match group.entityId with
  | none => .ok walk
  | some other =>
    match walk.nodes.place? other with
    | some place => .ok (walk.connect arrival other group.lines place)
    | none => do
      -- What is not stored is passed over; a new node needs a place in the budget.
      match ← store.entity? other with
      | none => .ok walk
      | some entity =>
        match walk.budget.take? with
        | none => .ok { walk with full := true }
        | some budget =>
          let grown := { walk with nodes := walk.nodes.push other ⟨entity, {}⟩, budget }
          .ok (grown.connect arrival other group.lines walk.nodes.entries.length)

def followAll (store : Store) (arrival : Arrival) :
    List NeighborGroup → Exploration → Except Error Exploration
  | [], walk => .ok walk
  | group :: rest, walk => do
    let walk ← follow store arrival walk group
    if walk.full then .ok walk else followAll store arrival rest walk

def expand (store : Store) (arrival : Arrival) (walk : Exploration) : Except Error Exploration := do
  followAll store arrival (← store.groups arrival.direction arrival.id) walk

def unsetLabels : List GraphNode → Nat
  | [] => 0
  | node :: rest => node.labels.unset + unsetLabels rest

/-- What is left to do: a place in the budget stands for two labels, and a label for a visit that is
still to be queued and taken out again. -/
def left (walk : Exploration) : Nat :=
  2 * (2 * (walk.budget.limit - walk.budget.used) + unsetLabels walk.nodes.entries) +
    walk.queue.length

theorem unsetLabels_append (nodes : List GraphNode) (node : GraphNode) :
    unsetLabels (nodes ++ [node]) = unsetLabels nodes + node.labels.unset := by
  induction nodes with
  | nil => simp [unsetLabels]
  | cons first rest ih => simp only [List.cons_append, unsetLabels, ih, Nat.add_assoc]

theorem unsetLabels_modify {nodes : List GraphNode} {place : Nat} {node : GraphNode}
    {direction : Direction} (here : nodes[place]? = some node)
    (unset : node.labels.get direction = none) (distance : Nat) :
    unsetLabels (nodes.modify place (·.label direction distance)) + 1 = unsetLabels nodes := by
  induction nodes generalizing place with
  | nil => simp at here
  | cons first rest ih =>
      cases place with
      | zero =>
          cases here
          have fewer := Labels.unset_put unset distance
          simp only [List.modify_zero_cons, unsetLabels, GraphNode.label]
          omega
      | succ place =>
          have fewer := ih here
          simp only [List.modify_succ_cons, unsetLabels]
          omega

theorem connect_left (walk : Exploration) (arrival : Arrival) (other : Int) (lines : List UInt32)
    (place : Nat) : (walk.connect arrival other lines place).left ≤ walk.left := by
  unfold connect
  dsimp only
  split
  next => exact Nat.le_refl _
  next node here =>
    split
    next => exact Nat.le_refl _
    next unset =>
      have fewer := unsetLabels_modify here unset (arrival.distance + 1)
      simp only [left, Indexed.modify, List.length_append, List.length_singleton]
      omega

theorem follow_left {store : Store} {arrival : Arrival} {walk next : Exploration}
    {group : NeighborGroup} (success : follow store arrival walk group = .ok next) :
    next.left ≤ walk.left := by
  unfold follow at success
  split at success
  next => cases success; exact Nat.le_refl _
  next other _ =>
    split at success
    next => cases success; exact connect_left _ _ _ _ _
    next =>
      cases found : store.entity? other with
      | error => simp [found, bind, Except.bind] at success
      | ok entity? =>
          simp only [found, bind, Except.bind] at success
          split at success
          next => cases success; exact Nat.le_refl _
          next entity =>
            split at success
            next => cases success; exact Nat.le_refl _
            next budget taken =>
              cases success
              refine Nat.le_trans (connect_left _ _ _ _ _) ?_
              unfold Budget.take? at taken
              split at taken
              next room =>
                cases taken
                simp only [left, Indexed.push, unsetLabels_append]
                have fresh : Labels.unset {} = 2 := rfl
                omega
              next => cases taken

theorem followAll_left {store : Store} {arrival : Arrival} {groups : List NeighborGroup}
    {walk next : Exploration} (success : followAll store arrival groups walk = .ok next) :
    next.left ≤ walk.left := by
  induction groups generalizing walk with
  | nil => cases success; exact Nat.le_refl _
  | cons group rest ih =>
      cases followed : follow store arrival walk group with
      | error => simp [followAll, followed, bind, Except.bind] at success
      | ok between =>
          simp only [followAll, followed, bind, Except.bind] at success
          have less := follow_left followed
          split at success
          next => cases success; exact less
          next => exact Nat.le_trans (ih success) less

theorem expand_left {store : Store} {arrival : Arrival} {walk next : Exploration}
    (success : expand store arrival walk = .ok next) : next.left ≤ walk.left := by
  cases read : store.groups arrival.direction arrival.id with
  | error => simp [expand, read, bind, Except.bind] at success
  | ok groups =>
      simp only [expand, read, bind, Except.bind] at success
      exact followAll_left success

def run (store : Store) (maxDepth : Nat) (walk : Exploration) : Except Error Exploration :=
  match _queued : walk.queue with
  | [] => .ok walk
  | arrival :: rest =>
    if maxDepth ≤ arrival.distance then run store maxDepth { walk with queue := rest }
    else
      match _expanded : expand store arrival { walk with queue := rest } with
      | .error error => .error error
      | .ok next => if next.full then .ok next else run store maxDepth next
termination_by walk.left
decreasing_by
  · simp only [left, _queued, List.length_cons]
    omega
  · have less := expand_left _expanded
    simp only [left, _queued, List.length_cons] at less ⊢
    omega

end Exploration

def build (store : Store) (directions : List Direction) (maxDepth : Nat) (budget : Budget)
    (root : Entity) : Except Error CallGraph := do
  let walk ← (Exploration.ofRoot directions budget root).run store maxDepth
  .ok
    { root := root.id
      maxDepth
      nodes := walk.nodes.entries
      edges := walk.edges.entries
      truncated := walk.full }

def around (store : Store) (limits : Limits) (projectId : Int) (symbol : String)
    (directions : List Direction) (maxDepth : Nat) : Except Error (Outcome CallGraph) := do
  match ← store.root? projectId symbol with
  | none => .ok (.rootNotFound symbol)
  | some root => do
    let graph ← build store directions maxDepth (.ofLimit limits.maxNodes.toNat) root
    .ok (.found graph)

end CallGraph

namespace Store

/-- The graph of all that reaches a symbol or is reached from it; depth zero asks for all that the
limits allow. -/
def callGraph (store : Store) (limits : Limits) (projectId : Int) (symbol : String)
    (depth : UInt32) : Except Error (Outcome CallGraph) :=
  let limits := limits.clamped
  CallGraph.around store limits projectId symbol [.callers, .callees]
    (effectiveDepth depth.toNat limits.maxGraphDepth.toNat)

def reverseCallGraph (store : Store) (limits : Limits) (projectId : Int) (symbol : String)
    (depth : UInt32) : Except Error (Outcome CallGraph) :=
  let limits := limits.clamped
  CallGraph.around store limits projectId symbol [.callers]
    (effectiveDepth depth.toNat limits.reverseGraphMaxDepth.toNat)

end Store

end DeclGraph
