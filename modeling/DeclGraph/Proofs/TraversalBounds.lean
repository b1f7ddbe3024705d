import Mathlib
import DeclGraph.Proofs.GraphLabels
import DeclGraph.Proofs.LastingIdentity
import DeclGraph.Proofs.TreeLevels

/-! No limits lift the hard bounds of a traversal. Whatever a client asks for, the depth of an answer
is in range, and every node is paid for from a budget that is in range as well: a tree has as many
nodes as were taken from it, and so has a graph. Nothing but a row that cannot be read keeps a query
from being answered, and operations store no such row. -/
namespace DeclGraph

/-- A depth that a query may be answered with: at least one, and at most the hard bound, the limit,
which counts as one if it is zero, and what was asked for, unless that is zero. -/
structure DepthWithin (limit requested depth : Nat) : Prop where
  positive : 1 ≤ depth
  hard : depth ≤ hardMaxDepth
  limit : depth ≤ max 1 limit
  requested : requested ≠ 0 → depth ≤ requested

theorem Limits.clampedDepth_toNat (depth : UInt32) :
    (clampedDepth depth).toNat = clamp 1 hardMaxDepth depth.toNat := by
  have small : clamp 1 hardMaxDepth depth.toNat < UInt32.size := by
    simp only [clamp, hardMaxDepth, UInt32.size]
    omega
  exact UInt32.toNat_ofNat_of_lt' small

theorem effectiveDepth_within (requested : Nat) (limit : UInt32) :
    DepthWithin limit.toNat requested
      (effectiveDepth requested (Limits.clampedDepth limit).toNat) := by
  rw [Limits.clampedDepth_toNat]
  unfold effectiveDepth clamp hardMaxDepth
  split <;> constructor <;> simp only [hardMaxDepth] <;> omega

theorem Limits.treeDepth_within (limits : Limits) (requested : UInt32) :
    DepthWithin limits.maxTreeDepth.toNat requested.toNat
      (limits.clamped.treeDepth requested) := by
  unfold treeDepth
  by_cases default : requested = 0
  · subst default
    have within := effectiveDepth_within limits.clamped.defaultDepth.toNat limits.maxTreeDepth
    exact ⟨within.positive, within.hard, within.limit, fun asked => absurd rfl asked⟩
  · simp only [default, if_false]
    exact effectiveDepth_within requested.toNat limits.maxTreeDepth

def Limits.nodeBound (limits : Limits) : Nat :=
  min (max 1 limits.maxNodes.toNat) hardMaxNodes

theorem Limits.nodeBound_pos (limits : Limits) : 0 < limits.nodeBound := by
  simp only [nodeBound, hardMaxNodes]
  omega

theorem Limits.clamped_nodeBound (limits : Limits) :
    limits.clamped.maxNodes.toNat = limits.nodeBound := by
  rw [limits.clamped_maxNodes]
  simp only [clamp, nodeBound, hardMaxNodes]
  omega

namespace Budget

/-- The budget of a query pays for the root. -/
theorem ofLimit_root (limits : Limits) :
    let budget := ofLimit limits.clamped.maxNodes.toNat
    (budget.take?.getD budget) = ⟨limits.nodeBound, 1⟩ := by
  have limit : (ofLimit limits.clamped.maxNodes.toNat).limit = limits.nodeBound := by
    rw [ofLimit_clamped, limits.clamped_nodeBound]
  have unused : (ofLimit limits.clamped.maxNodes.toNat).used = 0 := rfl
  simp [take?, limit, unused, limits.nodeBound_pos]

end Budget

namespace CallTree

structure Bounded (limits : Limits) (requested : UInt32) (tree : CallTree) : Prop where
  depth : DepthWithin limits.maxTreeDepth.toNat requested.toNat tree.depth
  levels : ∀ level above node, tree.root.Occurs level above node → level ≤ tree.depth
  counted : tree.nodeCount = tree.root.size
  nodes : tree.nodeCount ≤ limits.nodeBound

end CallTree

namespace Store
variable {store : Store} {limits : Limits} {projectId : Int} {symbol : String}
  {direction : Direction} {depth : UInt32} {tree : CallTree}

/-- A tree is found by unfolding its root with what is left of the budget once the root is paid for. -/
theorem callTree_found_iff :
    store.callTree limits projectId symbol direction depth = .ok (.found tree) ↔
      ∃ root growth, store.root? projectId symbol = .ok (some root) ∧
        CallTree.grow store direction (limits.clamped.treeDepth depth) [] root.id
          ⟨limits.nodeBound, 1⟩ = .ok growth ∧
        tree = ⟨direction, limits.clamped.treeDepth depth,
          .known root [] growth.ending growth.children, growth.budget.used⟩ := by
  rw [← Budget.ofLimit_root]
  constructor
  · intro success
    obtain ⟨found, read, success⟩ := bind_eq_ok.1 success
    cases found with
    | none => cases success
    | some root =>
        obtain ⟨built, success, same⟩ := bind_eq_ok.1 success
        obtain ⟨growth, grown, rfl⟩ :=
          (CallTree.build_eq_ok_iff (limits.clamped.treeDepth_pos depth)).1 success
        cases same
        exact ⟨root, growth, read, grown, rfl⟩
  · rintro ⟨root, growth, read, grown, rfl⟩
    have built := (CallTree.build_eq_ok_iff (limits.clamped.treeDepth_pos depth)).2 ⟨growth, grown, rfl⟩
    exact bind_eq_ok.2 ⟨some root, read, bind_eq_ok.2 ⟨_, built, rfl⟩⟩

theorem callTree_bounded
    (success : store.callTree limits projectId symbol direction depth = .ok (.found tree)) :
    tree.Bounded limits depth := by
  obtain ⟨-, -, -, unfolded⟩ := callTree_grown success
  obtain ⟨root, growth, -, grown, rfl⟩ := callTree_found_iff.1 success
  have spent := CallTree.grow_spent grown
  refine ⟨limits.treeDepth_within depth, fun _ _ _ occurs => (occurs.grown unfolded).1, ?_, ?_⟩
  · rw [CallNode.size, Nat.add_comm]
    exact spent.used
  · exact (spent.within limits.nodeBound_pos).trans spent.limit.le

end Store

def Labels.AtMost (bound : Nat) (labels : Labels) : Prop :=
  ∀ direction count, labels.get direction = some count → count ≤ bound

theorem Labels.AtMost.put {labels : Labels} {bound : Nat} (atMost : labels.AtMost bound)
    (direction : Direction) : (labels.put direction bound).AtMost bound := by
  intro other count label
  rw [get_put] at label
  split at label
  next =>
    rcases Option.or_eq_some_iff.1 label with old | ⟨-, new⟩
    · exact atMost other count old
    · exact (Option.some.inj new).ge
  next => exact atMost other count label

theorem Labels.AtMost.mono {labels : Labels} {bound larger : Nat} (atMost : labels.AtMost bound)
    (le : bound ≤ larger) : labels.AtMost larger :=
  fun direction count label => (atMost direction count label).trans le

theorem Labels.AtMost.empty (bound : Nat) : Labels.AtMost bound {} := by
  simp [AtMost]

namespace CallGraph
variable {store : Store}

/-- A graph that is being built, `distance` levels around its root: every node is paid for from the
budget, and nothing is labelled with more. -/
structure Sketch.Paid (bound distance : Nat) (sketch : Sketch) : Prop where
  limit : sketch.budget.limit = bound
  counted : sketch.nodes.length = sketch.budget.used
  within : sketch.budget.used ≤ bound
  nodes : ∀ node ∈ sketch.nodes, node.labels.AtMost distance
  edges : ∀ edge ∈ sketch.edges, edge.labels.AtMost distance

namespace Sketch
variable {bound distance : Nat} {sketch next : Sketch} {visit : Visit} {group : NeighborGroup}

theorem Paid.connect (paid : sketch.Paid bound distance) (visit : Visit) (other : Int)
    (lines : List UInt32) : (sketch.connect visit distance other lines).Paid bound distance where
  limit := paid.limit
  counted := (List.length_map _).trans paid.counted
  within := paid.within
  nodes := by
    refine List.forall_mem_map.2 fun node member => ?_
    split
    · exact (paid.nodes node member).put visit.direction
    · exact paid.nodes node member
  edges := labelEdge_forall ((Labels.AtMost.empty distance).put visit.direction)
    (fun edge member => (paid.edges edge member).put visit.direction) paid.edges

theorem Follows.paid (follows : Follows store visit distance sketch group next)
    (paid : sketch.Paid bound distance) : next.Paid bound distance := by
  cases follows with
  | stopped => exact paid
  | passed => exact paid
  | refused => exact ⟨paid.limit, paid.counted, paid.within, paid.nodes, paid.edges⟩
  | met => exact paid.connect visit _ _
  | @grown _ _ _ _ entity _ budget taken =>
      have spent := Budget.take?_spent taken
      have grown : Paid bound distance
          { sketch with nodes := sketch.nodes ++ [⟨entity, {}⟩], budget } := by
        refine ⟨spent.limit.trans paid.limit, ?_, ?_, ?_, paid.edges⟩
        · rw [List.length_append, List.length_singleton, spent.used, paid.counted]
        · have within := spent.within (paid.within.trans paid.limit.ge)
          exact within.trans (spent.limit.trans paid.limit).le
        · refine List.forall_mem_append.2 ⟨paid.nodes, ?_⟩
          exact List.forall_mem_singleton.2 (.empty distance)
      exact grown.connect visit _ _

theorem ofRoot_paid (directions : List Direction) (limits : Limits) (root : Entity) :
    (ofRoot directions (.ofLimit limits.clamped.maxNodes.toNat) root).Paid limits.nodeBound 0 := by
  have paid := Budget.ofLimit_root limits
  refine ⟨?_, ?_, ?_, ?_, by simp [ofRoot]⟩
  · simp only [ofRoot, paid]
  · simp only [ofRoot, paid, List.length_singleton]
  · simp only [ofRoot, paid]
    exact limits.nodeBound_pos
  · refine List.forall_mem_singleton.2 fun direction count label => ?_
    rw [Labels.get_putAll, Labels.get_empty, Option.none_or] at label
    split at label
    next => exact (Option.some.inj label).ge
    next => cases label

end Sketch

structure Bounded (limits : Limits) (maxDepth requested : UInt32) (graph : CallGraph) : Prop where
  depth : DepthWithin maxDepth.toNat requested.toNat graph.maxDepth
  nodes : ∀ node ∈ graph.nodes, node.labels.AtMost graph.maxDepth
  edges : ∀ edge ∈ graph.edges, edge.labels.AtMost graph.maxDepth
  counted : graph.nodes.length ≤ limits.nodeBound

theorem around_bounded {limits : Limits} {maxDepth requested : UInt32} {projectId : Int}
    {symbol : String} {directions : List Direction} {graph : CallGraph}
    (success : around store limits.clamped projectId symbol directions
      (effectiveDepth requested.toNat (Limits.clampedDepth maxDepth).toNat) = .ok (.found graph)) :
    graph.Bounded limits maxDepth requested := by
  obtain ⟨root, -, built⟩ := around_found_iff.1 success
  obtain ⟨sketch, grown, rfl⟩ := build_eq_ok_iff.1 built
  have paid := Sketch.levels_preserves (P := Sketch.Paid limits.nodeBound)
    (fun distance sketch paid => ⟨paid.limit, paid.counted, paid.within,
      fun node member => (paid.nodes node member).mono (Nat.le_succ distance),
      fun edge member => (paid.edges edge member).mono (Nat.le_succ distance)⟩)
    (fun _ _ _ _ _ _ _ _ follows paid => follows.paid paid)
    (Sketch.ofRoot_paid directions limits root) grown
  rw [Nat.zero_add] at paid
  exact ⟨effectiveDepth_within requested.toNat maxDepth, paid.nodes, paid.edges,
    paid.counted.trans_le paid.within⟩

end CallGraph

/-! A traversal reads declarations and lines of calls, and fails only where one cannot be read. -/

namespace Store
variable {store : Store}

def LinesReadable (store : Store) : Prop :=
  ∀ row ∈ store.calls.rows, ∃ line : UInt32, row.line = line.toNat

structure Traversable (store : Store) : Prop where
  entities : ∀ row ∈ store.entities.rows, ∃ entity, row.read = .ok entity
  lines : store.LinesReadable

structure Readable (store : Store) : Prop extends Traversable store where
  heritages : store.HeritagesKnown

theorem Change.linesReadable {after : Store} (change : Change store after)
    (readable : store.LinesReadable) : after.LinesReadable := by
  have frame : after.calls = store.calls → after.LinesReadable := by
    intro same
    rwa [LinesReadable, same]
  cases change with
  | putProject done => exact frame (putProject_frame done).2.1
  | beginGeneration done => exact frame (beginGeneration_frame done).2.1
  | putEntity done => exact frame (putEntity_frame done).2.1
  | purgeStale done =>
      cases done
      exact fun row member => readable row (List.mem_of_mem_filter member)
  | replaceCalls done =>
      obtain ⟨added, rows, written⟩ := replaceCalls_rows done
      intro row member
      rcases List.mem_append.1 (rows ▸ member) with old | new
      · exact readable row (List.mem_of_mem_filter old)
      · obtain ⟨draft, -, same⟩ := exists_left_of_mem written new
        exact ⟨draft.line, congrArg CallRow.line same⟩
  | addParent done => exact frame (addParent_frame done).2.2
  | dropParents done =>
      cases done
      exact readable
  | linkParents done => exact frame (linkParents_frame done).2.2

/-- Whatever was done to a store, it can be read. -/
theorem replay_readable (operations : List Operation) : (empty.replay operations).Readable where
  entities row member := by
    obtain ⟨draft, written⟩ := replay_drafted operations row member
    rw [written]
    exact ⟨_, EntityRow.ofDraft_read _ _ _ _⟩
  lines := replay_preserves Change.linesReadable (by simp [LinesReadable, empty]) operations
  heritages := replay_heritagesKnown operations

namespace Traversable

theorem entity? (readable : store.Traversable) (id : Int) : ∃ found, store.entity? id = .ok found := by
  by_cases held : store.Holds id
  · obtain ⟨row, member, numbered⟩ := held
    obtain ⟨entity, read⟩ := readable.entities row member
    exact ⟨some entity, entity?_eq_some_iff.2 ⟨row, member, numbered, read⟩⟩
  · exact ⟨none, entity?_eq_none_iff.2 held⟩

theorem entitiesOf (readable : store.Traversable) (projectId : Int) :
    ∃ found, store.entitiesOf projectId = .ok found :=
  mapM_succeeds fun row member => readable.entities row (List.mem_of_mem_filter member)

theorem entitiesNamed (readable : store.Traversable) (projectId : Int) (symbol : String)
    (kinds : List EntityKind) : ∃ found, store.entitiesNamed projectId symbol kinds = .ok found := by
  obtain ⟨found, read⟩ := mapM_succeeds fun row member =>
    readable.entities row (List.mem_of_mem_filter member)
  exact ⟨_, bind_eq_ok.2 ⟨found, read, rfl⟩⟩

theorem root? (readable : store.Traversable) (projectId : Int) (symbol : String) :
    ∃ found, store.root? projectId symbol = .ok found := by
  obtain ⟨entities, read⟩ := readable.entitiesNamed projectId symbol []
  exact ⟨_, bind_eq_ok.2 ⟨entities, read, rfl⟩⟩

theorem neighbors (readable : store.Traversable) (direction : Direction) (id : Int) :
    ∃ neighbors, store.neighbors direction id = .ok neighbors := by
  cases direction with
  | callers =>
      refine mapM_succeeds fun pair member => ?_
      obtain ⟨row, stored, kept⟩ := List.mem_filterMap.1 (List.mem_mergeSort.1 member)
      obtain ⟨line, numbered⟩ := readable.lines row stored
      split at kept
      next =>
        obtain ⟨caller, -, rfl⟩ := Option.map_eq_some_iff.1 kept
        exact ⟨_, bind_eq_ok.2 ⟨line, numbered ▸ readLine_toNat line 2, rfl⟩⟩
      next => cases kept
  | callees =>
      refine mapM_succeeds fun row member => ?_
      obtain ⟨line, numbered⟩ :=
        readable.lines row (List.mem_of_mem_filter (List.mem_mergeSort.1 member))
      exact ⟨_, bind_eq_ok.2 ⟨line, numbered ▸ readLine_toNat line 2, rfl⟩⟩

theorem groups (readable : store.Traversable) (direction : Direction) (id : Int) :
    ∃ groups, store.groups direction id = .ok groups := by
  obtain ⟨neighbors, read⟩ := readable.neighbors direction id
  exact ⟨_, bind_eq_ok.2 ⟨neighbors, read, rfl⟩⟩

theorem branch (readable : store.Traversable) {grow : Int → Budget → Except Error CallTree.Growth}
    (grows : ∀ id budget, ∃ growth, grow id budget = .ok growth) (trail : Trail)
    (group : NeighborGroup) (budget : Budget) :
    ∃ grown, CallTree.branch store grow trail group budget = .ok grown := by
  unfold CallTree.branch
  split
  next => exact ⟨_, rfl⟩
  next id _ =>
    obtain ⟨found, read⟩ := readable.entity? id
    cases found with
    | none => exact ⟨_, bind_eq_ok.2 ⟨none, read, rfl⟩⟩
    | some entity =>
        by_cases above : trail.contains id = true
        · exact ⟨_, bind_eq_ok.2 ⟨some entity, read, if_pos above⟩⟩
        · obtain ⟨growth, grown⟩ := grows id budget
          exact ⟨_, bind_eq_ok.2
            ⟨some entity, read, (if_neg above).trans (bind_eq_ok.2 ⟨growth, grown, rfl⟩)⟩⟩

theorem branches (readable : store.Traversable) {grow : Int → Budget → Except Error CallTree.Growth}
    (grows : ∀ id budget, ∃ growth, grow id budget = .ok growth) (trail : Trail)
    (groups : List NeighborGroup) (budget : Budget) :
    ∃ growth, CallTree.branches store grow trail groups budget = .ok growth := by
  induction groups generalizing budget with
  | nil => exact ⟨_, rfl⟩
  | cons group rest ih =>
      unfold CallTree.branches
      split
      next => exact ⟨_, rfl⟩
      next paid _ =>
        obtain ⟨⟨node, next⟩, here⟩ := readable.branch grows trail group paid
        obtain ⟨others, remaining⟩ := ih next
        exact ⟨_, bind_eq_ok.2 ⟨_, here, bind_eq_ok.2 ⟨others, remaining, rfl⟩⟩⟩

theorem grow (readable : store.Traversable) (direction : Direction) (levels : Nat) (trail : Trail)
    (id : Int) (budget : Budget) :
    ∃ growth, CallTree.grow store direction levels trail id budget = .ok growth := by
  induction levels generalizing trail id budget with
  | zero =>
      obtain ⟨neighbors, read⟩ := readable.neighbors direction id
      exact ⟨_, bind_eq_ok.2 ⟨neighbors, read, rfl⟩⟩
  | succ levels ih =>
      obtain ⟨groups, read⟩ := readable.groups direction id
      obtain ⟨growth, grown⟩ :=
        readable.branches (fun child => ih (id :: trail) child) (id :: trail) groups budget
      exact ⟨growth, bind_eq_ok.2 ⟨groups, read, grown⟩⟩

theorem callTree (readable : store.Traversable) (limits : Limits) (projectId : Int) (symbol : String)
    (direction : Direction) (depth : UInt32) :
    ∃ outcome, store.callTree limits projectId symbol direction depth = .ok outcome := by
  obtain ⟨found, read⟩ := readable.root? projectId symbol
  cases found with
  | none => exact ⟨_, bind_eq_ok.2 ⟨none, read, rfl⟩⟩
  | some root =>
      obtain ⟨growth, grown⟩ := readable.grow direction (limits.clamped.treeDepth depth) [] root.id
        ⟨limits.nodeBound, 1⟩
      exact ⟨_, callTree_found_iff.2 ⟨root, growth, read, grown, rfl⟩⟩

theorem follow (readable : store.Traversable) (visit : CallGraph.Visit) (distance : Nat)
    (sketch : CallGraph.Sketch) (group : NeighborGroup) :
    ∃ next, sketch.follow store visit distance group = .ok next := by
  unfold CallGraph.Sketch.follow
  split
  next => exact ⟨_, rfl⟩
  next =>
    split
    next => exact ⟨_, rfl⟩
    next other _ =>
      split
      next => exact ⟨_, rfl⟩
      next =>
        obtain ⟨found, read⟩ := readable.entity? other
        rw [read]
        cases found with
        | none => exact ⟨_, rfl⟩
        | some entity => cases sketch.budget.take? <;> exact ⟨_, rfl⟩

theorem expand (readable : store.Traversable) (distance : Nat) (sketch : CallGraph.Sketch)
    (visit : CallGraph.Visit) : ∃ next, sketch.expand store distance visit = .ok next := by
  unfold CallGraph.Sketch.expand
  split
  next => exact ⟨_, rfl⟩
  next =>
    obtain ⟨groups, read⟩ := readable.groups visit.direction visit.id
    obtain ⟨next, followed⟩ := foldlM_succeeds (readable.follow visit distance) groups sketch
    exact ⟨next, bind_eq_ok.2 ⟨groups, read, followed⟩⟩

theorem levels (readable : store.Traversable) (remaining distance : Nat) (sketch : CallGraph.Sketch) :
    ∃ next, sketch.levels store remaining distance = .ok next := by
  induction remaining generalizing distance sketch with
  | zero => exact ⟨sketch, rfl⟩
  | succ remaining ih =>
      obtain ⟨next, level⟩ := foldlM_succeeds (readable.expand distance) sketch.frontier
        { sketch with frontier := [] }
      obtain ⟨last, others⟩ := ih (distance + 1) next
      exact ⟨last, bind_eq_ok.2 ⟨next, level, others⟩⟩

theorem around (readable : store.Traversable) (limits : Limits) (projectId : Int) (symbol : String)
    (directions : List Direction) (maxDepth : Nat) :
    ∃ outcome, CallGraph.around store limits projectId symbol directions maxDepth = .ok outcome := by
  obtain ⟨found, read⟩ := readable.root? projectId symbol
  cases found with
  | none => exact ⟨_, bind_eq_ok.2 ⟨none, read, rfl⟩⟩
  | some root =>
      obtain ⟨sketch, grown⟩ := readable.levels maxDepth 1 (.ofRoot directions _ root)
      exact ⟨_, bind_eq_ok.2
        ⟨some root, read, bind_eq_ok.2 ⟨_, CallGraph.build_eq_ok_iff.2 ⟨sketch, grown, rfl⟩, rfl⟩⟩⟩

end Traversable

/-- The bounds hold whatever the limits are and whatever is asked for, and a query is answered if the
store can be read. -/
theorem bounds_hold_for_all_limits (store : Store) (limits : Limits) (projectId : Int)
    (symbol : String) (direction : Direction) (depth : UInt32) :
    (store.Traversable →
      (∃ outcome, store.callTree limits projectId symbol direction depth = .ok outcome) ∧
      (∃ outcome, store.callGraph limits projectId symbol depth = .ok outcome) ∧
      (∃ outcome, store.reverseCallGraph limits projectId symbol depth = .ok outcome)) ∧
    (∀ tree, store.callTree limits projectId symbol direction depth = .ok (.found tree) →
      tree.Bounded limits depth) ∧
    (∀ graph, store.callGraph limits projectId symbol depth = .ok (.found graph) →
      graph.Bounded limits limits.maxGraphDepth depth) ∧
    (∀ graph, store.reverseCallGraph limits projectId symbol depth = .ok (.found graph) →
      graph.Bounded limits limits.reverseGraphMaxDepth depth) := by
  refine ⟨fun readable => ⟨?_, ?_, ?_⟩, fun _ => callTree_bounded,
    fun _ => CallGraph.around_bounded, fun _ => CallGraph.around_bounded⟩
  · exact readable.callTree limits projectId symbol direction depth
  · exact readable.around _ projectId symbol _ _
  · exact readable.around _ projectId symbol _ _

def noLimits : Limits :=
  ⟨0, 0, 0, 0, 0⟩

def openLimits : Limits :=
  ⟨4294967295, 4294967295, 4294967295, 4294967295, 18446744073709551615⟩

def rootTree : CallTree where
  direction := .callees
  depth := 1
  root := .known ⟨recursiveDraft "even", 1, 1⟩ [] .truncated []
  nodeCount := 1

theorem recursive_bounds :
    recursiveStore.Readable ∧
      (∃ outcome, recursiveStore.reverseCallGraph openLimits 1 "even" 0 = .ok outcome) ∧
      recursiveStore.callTree noLimits 1 "even" .callees 0 = .ok (.found rootTree) ∧
      rootTree.Bounded noLimits 0 ∧
      recursiveStore.callGraph openLimits 1 "even" 4294967295 =
        .ok (.found { recursiveGraph with maxDepth := 64 }) ∧
      CallGraph.Bounded openLimits 4294967295 4294967295 { recursiveGraph with maxDepth := 64 } ∧
      recursiveStore.reverseCallGraph openLimits 1 "even" 4294967295 =
        .ok (.found { recursiveReverse with maxDepth := 64 }) ∧
      CallGraph.Bounded openLimits 4294967295 4294967295
        { recursiveReverse with maxDepth := 64 } := by
  have readable : recursiveStore.Readable :=
    replay_readable [.putEntities 1 1 _, .replaceCalls 1 _]
  have tree : recursiveStore.callTree noLimits 1 "even" .callees 0 = .ok (.found rootTree) := by
    cbv
  have graph : recursiveStore.callGraph openLimits 1 "even" 4294967295 =
      .ok (.found { recursiveGraph with maxDepth := 64 }) := by
    simp only [callGraph, CallGraph.around, CallGraph.build_eq_levels]
    cbv
  have reverse : recursiveStore.reverseCallGraph openLimits 1 "even" 4294967295 =
      .ok (.found { recursiveReverse with maxDepth := 64 }) := by
    simp only [reverseCallGraph, CallGraph.around, CallGraph.build_eq_levels]
    cbv
  obtain ⟨answered, -⟩ := bounds_hold_for_all_limits recursiveStore openLimits 1 "even" .callees 0
  obtain ⟨-, trees, -⟩ := bounds_hold_for_all_limits recursiveStore noLimits 1 "even" .callees 0
  obtain ⟨-, -, graphs, reverses⟩ :=
    bounds_hold_for_all_limits recursiveStore openLimits 1 "even" .callees 4294967295
  exact ⟨readable, (answered readable.toTraversable).2.2, tree, trees _ tree, graph, graphs _ graph,
    reverse, reverses _ reverse⟩

end Store
end DeclGraph
