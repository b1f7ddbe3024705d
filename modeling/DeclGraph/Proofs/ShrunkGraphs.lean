import Mathlib
import DeclGraph.Proofs.GraphLabels

/-! Smaller call graphs out of larger ones. A graph that is to go deeper grows the same way first. Its
further levels put nodes and edges behind those that are there, and set only labels above the smaller
depth. So a client gets the graph of that depth by erasing the labels above it, with all that is left
without a label. -/
namespace DeclGraph

namespace Labels

def upTo (depth : Nat) (labels : Labels) : Labels where
  caller := labels.caller.filter (· ≤ depth)
  callee := labels.callee.filter (· ≤ depth)

theorem upTo_empty (depth : Nat) : upTo depth {} = {} :=
  rfl

theorem upTo_put {depth distance : Nat} (deeper : depth < distance) (labels : Labels)
    (direction : Direction) : (labels.put direction distance).upTo depth = labels.upTo depth := by
  cases direction with
  | callers => cases caller : labels.caller <;> simp [put, upTo, caller, deeper]
  | callees => cases callee : labels.callee <;> simp [put, upTo, callee, deeper]

theorem upTo_eq_self {depth : Nat} {labels : Labels}
    (within : ∀ direction count, labels.get direction = some count → count ≤ depth) :
    labels.upTo depth = labels := by
  have kept : ∀ label : Option Nat, (∀ count, label = some count → count ≤ depth) →
      label.filter (· ≤ depth) = label := by
    intro label bound
    cases label with
    | none => rfl
    | some count => exact Option.filter_some_pos (decide_eq_true (bound count rfl))
  simp only [upTo, kept labels.caller (within .callers), kept labels.callee (within .callees)]

theorem Any.ne_empty {labels : Labels} (labelled : labels.Any) : labels ≠ {} := by
  rintro rfl
  obtain ⟨direction, label⟩ := labelled
  simp at label

end Labels

def GraphNode.upTo (depth : Nat) (node : GraphNode) : Option GraphNode :=
  if node.labels.upTo depth = {} then none
  else some { node with labels := node.labels.upTo depth }

def GraphEdge.upTo (depth : Nat) (edge : GraphEdge) : Option GraphEdge :=
  if edge.labels.upTo depth = {} then none
  else some { edge with labels := edge.labels.upTo depth }

namespace CallGraph

/-- The graph without the labels above a depth, and without all that then has no label. -/
def shrink (graph : CallGraph) (depth : Nat) : CallGraph :=
  { graph with
    maxDepth := depth
    nodes := graph.nodes.filterMap (GraphNode.upTo depth)
    edges := graph.edges.filterMap (GraphEdge.upTo depth) }

variable {depth distance : Nat}

theorem labelNode_upTo (deeper : depth < distance) (direction : Direction) (id : Int)
    (nodes : List GraphNode) :
    (labelNode direction id distance nodes).filterMap (GraphNode.upTo depth) =
      nodes.filterMap (GraphNode.upTo depth) := by
  rw [labelNode, List.filterMap_map]
  apply List.filterMap_congr
  intro node _
  simp only [Function.comp_apply]
  split
  · simp only [GraphNode.upTo, Labels.upTo_put deeper]
  · rfl

theorem labelEdge_upTo (deeper : depth < distance) (direction : Direction) (callerId calleeId : Int)
    (lines : List UInt32) (edges : List GraphEdge) :
    (labelEdge direction callerId calleeId lines distance edges).filterMap (GraphEdge.upTo depth) =
      edges.filterMap (GraphEdge.upTo depth) := by
  induction edges with
  | nil =>
      rw [labelEdge, List.filterMap_cons_none, List.filterMap_nil]
      simp only [GraphEdge.upTo, Labels.upTo_put deeper, Labels.upTo_empty, if_true]
  | cons edge rest ih =>
      rw [labelEdge]
      split
      · rw [List.filterMap_cons, List.filterMap_cons]
        simp only [GraphEdge.upTo, Labels.upTo_put deeper]
      · rw [List.filterMap_cons, List.filterMap_cons, ih]

namespace Sketch

variable {store : Store} {before between after sketch next : Sketch} {visit : Visit}
  {directions : List Direction} {root : Int}

structure Beyond (depth : Nat) (before after : Sketch) : Prop where
  nodes : after.nodes.filterMap (GraphNode.upTo depth) = before.nodes.filterMap (GraphNode.upTo depth)
  edges : after.edges.filterMap (GraphEdge.upTo depth) = before.edges.filterMap (GraphEdge.upTo depth)
  started : after.full = false → before.full = false

theorem Beyond.refl (sketch : Sketch) : Beyond depth sketch sketch :=
  ⟨rfl, rfl, id⟩

theorem Beyond.trans (first : Beyond depth before between) (second : Beyond depth between after) :
    Beyond depth before after :=
  ⟨second.nodes.trans first.nodes, second.edges.trans first.edges,
    fun complete => first.started (second.started complete)⟩

theorem connect_beyond (deeper : depth < distance) (other : Int) (lines : List UInt32) :
    Beyond depth sketch (sketch.connect visit distance other lines) where
  nodes := labelNode_upTo deeper visit.direction other sketch.nodes
  edges := labelEdge_upTo deeper visit.direction _ _ lines sketch.edges
  started := id

theorem follow_beyond (deeper : depth < distance) {group : NeighborGroup}
    (success : sketch.follow store visit distance group = .ok next) : Beyond depth sketch next := by
  cases follow_cases success with
  | stopped => exact .refl sketch
  | passed => exact .refl sketch
  | refused => exact ⟨rfl, rfl, fun complete => by cases complete⟩
  | met => exact connect_beyond deeper _ _
  | grown =>
      apply Beyond.trans _ (connect_beyond deeper _ _)
      refine ⟨?_, rfl, id⟩
      rw [List.filterMap_append]
      -- A node that is new has no labels yet.
      exact List.append_nil _

theorem foldlM_beyond {α : Type} {step : Sketch → α → Except Error Sketch} {items : List α}
    (each : ∀ item before after, step before item = .ok after → Beyond depth before after)
    (success : items.foldlM step before = .ok after) : Beyond depth before after := by
  induction items generalizing before with
  | nil =>
      cases success
      exact .refl _
  | cons item rest ih =>
      rw [List.foldlM_cons] at success
      obtain ⟨between, first, others⟩ := bind_eq_ok.1 success
      exact (each item before between first).trans (ih others)

theorem expand_beyond (deeper : depth < distance)
    (success : sketch.expand store distance visit = .ok next) : Beyond depth sketch next := by
  unfold expand at success
  split at success
  next =>
    cases success
    exact .refl sketch
  next =>
    obtain ⟨groups, -, success⟩ := bind_eq_ok.1 success
    exact foldlM_beyond (fun group before after first => follow_beyond deeper first) success

theorem levels_beyond {remaining : Nat} (deeper : depth < distance)
    (success : sketch.levels store remaining distance = .ok next) : Beyond depth sketch next := by
  induction remaining generalizing sketch distance with
  | zero =>
      cases success
      exact .refl _
  | succ remaining ih =>
      obtain ⟨between, level, others⟩ := bind_eq_ok.1 success
      have grown := foldlM_beyond (fun visit before after first => expand_beyond deeper first) level
      have first : Beyond depth sketch between := ⟨grown.nodes, grown.edges, grown.started⟩
      exact first.trans (ih (by omega) others)

/-- Deep graphs begin as shallow ones. -/
theorem levels_add (store : Store) (first second distance : Nat) (sketch : Sketch) :
    sketch.levels store (first + second) distance =
      sketch.levels store first distance >>= levels store second (distance + first) := by
  induction first generalizing sketch distance with
  | zero =>
      rw [Nat.zero_add]
      rfl
  | succ first ih =>
      rw [Nat.add_right_comm, levels, levels, bind_assoc]
      apply bind_congr
      intro next
      rw [ih, Nat.add_assoc, Nat.add_comm 1]

theorem Exact.nodes_upTo (exact : Exact store directions root depth sketch)
    (valid : sketch.Valid store) : sketch.nodes.filterMap (GraphNode.upTo depth) = sketch.nodes := by
  refine (List.filterMap_congr fun node member => ?_).trans List.filterMap_some
  have within : node.labels.upTo depth = node.labels := by
    apply Labels.upTo_eq_self
    intro direction count label
    have here : sketch.nodeLabels ⟨node.entity.id, direction⟩ = some count :=
      (nodeLabel_eq_some_iff valid.nodes_distinct).2 ⟨node, member, rfl, label⟩
    exact ((exact.node_label _ _).1 here).2.2
  rw [GraphNode.upTo, within, if_neg (valid.nodes_labelled node member).ne_empty]

theorem Exact.edges_upTo (exact : Exact store directions root depth sketch)
    (valid : sketch.Valid store) : sketch.edges.filterMap (GraphEdge.upTo depth) = sketch.edges := by
  refine (List.filterMap_congr fun edge member => ?_).trans List.filterMap_some
  have within : edge.labels.upTo depth = edge.labels := by
    apply Labels.upTo_eq_self
    intro direction count label
    have here : sketch.edgeLabels (direction, edgeEnds edge) = some count :=
      (edgeLabel_eq_some_iff valid.edges_distinct).2 ⟨edge, member, rfl, label⟩
    obtain ⟨-, -, nearer, rfl, -, bound⟩ := (exact.edge_label _ _ _).1 here
    exact bound
  rw [GraphEdge.upTo, within, if_neg (valid.edges_labelled edge member).ne_empty]

end Sketch

variable {store : Store} {directions : List Direction} {small large : Nat} {budget : Budget}
  {graph : CallGraph}

theorem build_shrink {root : Entity} (nonempty : directions ≠ [])
    (stored : store.entity? root.id = .ok (some root)) (shallower : small ≤ large)
    (success : build store directions large budget root = .ok graph)
    (complete : graph.truncated = false) :
    build store directions small budget root = .ok (graph.shrink small) := by
  obtain ⟨deep, grown, rfl⟩ := build_eq_ok_iff.1 success
  obtain ⟨further, rfl⟩ := Nat.exists_eq_add_of_le shallower
  rw [Sketch.levels_add] at grown
  obtain ⟨shallow, first, second⟩ := bind_eq_ok.1 grown
  have beyond := Sketch.levels_beyond (Nat.lt_add_left_iff_pos.2 Nat.one_pos) second
  have started := beyond.started complete
  obtain ⟨valid, exact⟩ := Sketch.levels_exact (Store.holds_of_entity? stored)
    (Sketch.ofRoot_valid nonempty stored) (fun _ => Sketch.ofRoot_exact) first
  have exact := exact started
  rw [Nat.zero_add] at exact
  -- Both graphs show what the first levels have brought, the one at once, the other after erasing.
  refine build_eq_ok_iff.2 ⟨shallow, first, ?_⟩
  simp only [shrink, beyond.nodes, beyond.edges, exact.nodes_upTo valid, exact.edges_upTo valid,
    started, show deep.full = false from complete]

theorem around_shrink {limits : Limits} {projectId : Int} {symbol : String} (nonempty : directions ≠ [])
    (shallower : small ≤ large)
    (success : around store limits projectId symbol directions large = .ok (.found graph))
    (complete : graph.truncated = false) :
    around store limits projectId symbol directions small = .ok (.found (graph.shrink small)) := by
  obtain ⟨root, read, built⟩ := around_found_iff.1 success
  have smaller := build_shrink nonempty (Store.root?_stored read) shallower built complete
  exact around_found_iff.2 ⟨root, read, smaller⟩

end CallGraph

namespace Store

/-- A complete call graph holds all smaller ones: asking for less depth succeeds, and gives the graph
with the labels above that depth erased. -/
theorem call_graph_shrinks (store : Store) (limits : Limits) (projectId : Int) (symbol : String)
    (small large : UInt32) (graph : CallGraph) (complete : graph.truncated = false) :
    (effectiveDepth small.toNat limits.clamped.maxGraphDepth.toNat ≤
        effectiveDepth large.toNat limits.clamped.maxGraphDepth.toNat →
      store.callGraph limits projectId symbol large = .ok (.found graph) →
      ∃ smaller, store.callGraph limits projectId symbol small = .ok (.found smaller) ∧
        smaller.truncated = false ∧
        smaller = graph.shrink (effectiveDepth small.toNat limits.clamped.maxGraphDepth.toNat)) ∧
    (effectiveDepth small.toNat limits.clamped.reverseGraphMaxDepth.toNat ≤
        effectiveDepth large.toNat limits.clamped.reverseGraphMaxDepth.toNat →
      store.reverseCallGraph limits projectId symbol large = .ok (.found graph) →
      ∃ smaller, store.reverseCallGraph limits projectId symbol small = .ok (.found smaller) ∧
        smaller.truncated = false ∧
        smaller = graph.shrink (effectiveDepth small.toNat limits.clamped.reverseGraphMaxDepth.toNat)) :=
  ⟨fun shallower success =>
      ⟨_, CallGraph.around_shrink (by simp) shallower success complete, complete, rfl⟩,
    fun shallower success =>
      ⟨_, CallGraph.around_shrink (by simp) shallower success complete, complete, rfl⟩⟩

/-- One level around `even`: each call between it and `odd` is an edge that loses one of its labels. The
call from `even` to `odd` has no other label in the reverse graph. -/
theorem recursive_graph_shrinks :
    recursiveStore.callGraph {} 1 "even" 1 = .ok (.found (recursiveGraph.shrink 1)) ∧
      (recursiveGraph.shrink 1).edges =
        [⟨1, 1, [3], ⟨some 1, some 1⟩⟩, ⟨3, 1, [6], ⟨some 1, none⟩⟩, ⟨2, 1, [5], ⟨some 1, none⟩⟩,
          ⟨1, 2, [2], ⟨none, some 1⟩⟩] ∧
      recursiveStore.reverseCallGraph {} 1 "even" 1 = .ok (.found (recursiveReverse.shrink 1)) ∧
      (recursiveReverse.shrink 1).edges =
        [⟨1, 1, [3], ⟨some 1, none⟩⟩, ⟨3, 1, [6], ⟨some 1, none⟩⟩, ⟨2, 1, [5], ⟨some 1, none⟩⟩] := by
  obtain ⟨smaller, success, -, rfl⟩ := (call_graph_shrinks recursiveStore {} 1 "even" 1 4
    recursiveGraph rfl).1 (by decide) recursiveGraph_found
  obtain ⟨reverse, success', -, rfl⟩ := (call_graph_shrinks recursiveStore {} 1 "even" 1 4
    recursiveReverse rfl).2 (by decide) recursiveReverse_found
  exact ⟨success, rfl, success', rfl⟩

end Store

end DeclGraph
