import Mathlib
import DeclGraph.Proofs.GraphLabels
import DeclGraph.Proofs.TreeAnnotations

/-! Levels of trees and labels of graphs. A tree goes depth first and does not unfold a declaration that
is above itself; a graph goes breadth first and visits no declaration twice. A shortest way meets no
declaration twice either, so no tree leaves it early: a declaration stands highest in a tree at its
distance from the root, and that is its label in the graph. -/
namespace DeclGraph

namespace CallNode

variable {store : Store} {direction : Direction} {full last : Prop} {depth level count : Nat}
  {trail above : List Int} {root node child : CallNode} {start entity : Entity} {id other : Int}
  {groups listed : List NeighborGroup}

def Stands (root : CallNode) (level : Nat) (id : Int) : Prop :=
  ∃ above node entity, root.Occurs level above node ∧ node.entity? = some entity ∧ entity.id = id

theorem Grown.stored (grown : Grown store direction full level trail node)
    (declared : node.entity? = some entity) : store.entity? entity.id = .ok (some entity) := by
  cases grown with
  | missing => cases declared
  | loop stored =>
      cases declared
      exact stored
  | unfolded stored =>
      cases declared
      exact stored

theorem Lists.arc (lists : Lists store direction last full id groups listed node)
    (held : store.Holds id) (member : child ∈ node.children)
    (declared : child.entity? = some entity) (stored : store.Holds entity.id) :
    store.Arc direction id entity.id := by
  obtain ⟨group, pair, shows⟩ := exists_left_of_mem lists.shown member
  have known : group ∈ groups := lists.front.subset (List.of_mem_zip pair).1
  cases shows with
  | missing => cases declared
  | declared leads =>
      cases declared
      apply (Store.adjacent_iff_arc held).1
      exact (Store.groups_known lists.read).1 ⟨⟨group, known, leads⟩, stored⟩

/-- Above the last level, a node has a child for everything that a call leads to. -/
theorem Lists.exists_child (lists : Lists store direction last full id groups listed node)
    (roomy : full) (inner : ¬ last) (held : store.Holds id)
    (arc : store.Arc direction id other) :
    ∃ child ∈ node.children, ∃ entity, child.entity? = some entity ∧ entity.id = other := by
  have adjacent := (Store.adjacent_iff_arc held).2 arc
  obtain ⟨⟨group, known, leads⟩, stored⟩ := (Store.groups_known lists.read).2 adjacent
  rw [← lists.whole roomy inner] at known
  obtain ⟨child, pair, shows⟩ := exists_right_of_mem lists.shown known
  refine ⟨child, (List.of_mem_zip pair).2, ?_⟩
  cases shows with
  | missing absent => exact absurd stored (absent other leads)
  | declared leads' => exact ⟨_, rfl, Option.some.inj (leads'.symm.trans leads)⟩

theorem Occurs.steps (grown : Grown store direction full depth [] root)
    (top : root.entity? = some start) (occurs : root.Occurs level above node)
    (declared : node.entity? = some entity) :
    Steps (store.Arc direction) start.id level entity.id := by
  induction occurs generalizing entity with
  | root =>
      cases top.symm.trans declared
      exact .refl
  | child parent member ih =>
      have below := (parent.child member).grown grown
      have stored := below.2.stored declared
      apply (ih rfl).step
      obtain ⟨-, here⟩ := parent.grown grown
      cases here with
      | loop => cases member
      | unfolded stored' _ _ lists =>
          exact lists.arc (Store.holds_of_entity? stored') member declared
            (Store.holds_of_entity? stored)

/-- A declaration occurs at its distance, below nothing but nearer ones. -/
theorem occurs_of_distance (grown : Grown store direction full depth [] root)
    (top : root.entity? = some start) (roomy : full) (bound : count ≤ depth)
    (distance : store.Distance direction start.id id count) :
    ∃ above node entity, root.Occurs count above node ∧ node.entity? = some entity ∧ entity.id = id ∧
      ∀ upper ∈ above, ∃ nearer < count, store.Distance direction start.id upper nearer := by
  induction count generalizing id with
  | zero =>
      refine ⟨[], root, start, .root, top, (Store.distance_zero_iff.1 distance).symm, ?_⟩
      simp
  | succ count ih =>
      obtain ⟨⟨near, distance', arc⟩, -⟩ := Store.distance_succ_iff.1 distance
      obtain ⟨above, node, entity, occurs, declared, rfl, nearer⟩ := ih (by omega) distance'
      obtain ⟨-, here⟩ := occurs.grown grown
      cases here with
      | missing => cases declared
      | loop _ repeated =>
          -- What is above is nearer, so the declaration would have two distances.
          cases declared
          obtain ⟨less, smaller, distance''⟩ := nearer _ repeated
          have := distance'.unique distance''
          omega
      | unfolded stored _ _ lists =>
          cases declared
          obtain ⟨child, member, entity', declared', numbered⟩ :=
            lists.exists_child roomy (by omega) (Store.holds_of_entity? stored) arc
          refine ⟨_, child, entity', occurs.child member, declared', numbered, ?_⟩
          intro upper listed
          rcases List.mem_cons.1 listed with rfl | higher
          · exact ⟨count, by omega, distance'⟩
          · obtain ⟨less, smaller, distance''⟩ := nearer upper higher
            exact ⟨less, by omega, distance''⟩

/-- The highest level of a declaration is its distance from the root. -/
theorem Grown.highest_iff (grown : Grown store direction full depth [] root)
    (top : root.entity? = some start) (roomy : full) :
    IsLeast {level | root.Stands level id} count ↔
      store.Distance direction start.id id count ∧ count ≤ depth := by
  have reached : ∀ level, root.Stands level id → Steps (store.Arc direction) start.id level id := by
    rintro level ⟨above, node, entity, occurs, declared, rfl⟩
    exact occurs.steps grown top declared
  have placed : ∀ level, store.Distance direction start.id id level → level ≤ depth →
      root.Stands level id := by
    intro level distance bound
    obtain ⟨above, node, entity, occurs, declared, numbered, -⟩ :=
      occurs_of_distance grown top roomy bound distance
    exact ⟨above, node, entity, occurs, declared, numbered⟩
  constructor
  · rintro ⟨stands, least⟩
    obtain ⟨shortest, short, distance⟩ := (reached count stands).exists_shortest
    obtain ⟨above, node, entity, occurs, -⟩ := stands
    obtain ⟨bound, -⟩ := occurs.grown grown
    have distance := Store.distance_iff_arc.2 distance
    -- The declaration stands at its distance as well, which cannot be above its highest level.
    have highest := least (placed shortest distance (by omega))
    obtain rfl : shortest = count := by omega
    exact ⟨distance, bound⟩
  · rintro ⟨distance, bound⟩
    refine ⟨placed count distance bound, fun level stands => ?_⟩
    exact (Store.distance_iff_arc.1 distance).2 (reached level stands)

end CallNode

namespace Store

open CallNode

variable {store : Store} {limits : Limits} {projectId : Int} {symbol : String} {direction : Direction}
  {treeDepth graphDepth : UInt32} {tree : CallTree} {graph : CallGraph}

theorem callTree_grown
    (success : store.callTree limits projectId symbol direction treeDepth = .ok (.found tree)) :
    ∃ root, store.root? projectId symbol = .ok (some root) ∧ tree.root.entity? = some root ∧
      Grown store direction (tree.nodeCount < limits.clamped.maxNodes.toNat) tree.depth []
        tree.root := by
  obtain ⟨found, read, success⟩ := bind_eq_ok.1 success
  cases found with
  | none => cases success
  | some root =>
      obtain ⟨built, success, same⟩ := bind_eq_ok.1 success
      cases same
      have positive := limits.clamped.treeDepth_pos treeDepth
      have grown := CallTree.build_grown positive success (root?_stored read)
      rw [Budget.ofLimit_clamped] at grown
      obtain ⟨growth, -, rfl⟩ := (CallTree.build_eq_ok_iff positive).1 success
      exact ⟨root, read, rfl, grown⟩

/-- A tree and a graph of one symbol and one depth, none of them cut short by its budget, show the same
declarations in a direction, and each stands highest in the tree on the level of its label. -/
theorem tree_levels_are_graph_labels
    (unfolded : store.callTree limits projectId symbol direction treeDepth = .ok (.found tree))
    (roomy : tree.nodeCount < limits.clamped.maxNodes.toNat)
    (built : store.callGraph limits projectId symbol graphDepth = .ok (.found graph) ∨
      direction = .callers ∧
        store.reverseCallGraph limits projectId symbol graphDepth = .ok (.found graph))
    (complete : graph.truncated = false) (even : graph.maxDepth = tree.depth) :
    {id | ∃ level, tree.root.Stands level id} =
        {id | ∃ node ∈ graph.nodes, node.entity.id = id ∧ (node.labels.get direction).isSome} ∧
      ∀ node ∈ graph.nodes, ∀ label, node.labels.get direction = some label →
        IsLeast {level | tree.root.Stands level node.entity.id} label := by
  obtain ⟨root, read, top, grown⟩ := callTree_grown unfolded
  obtain ⟨directions, covered, root', read', same, labels⟩ : ∃ directions, direction ∈ directions ∧
      ∃ root', store.root? projectId symbol = .ok (some root') ∧ graph.root = root'.id ∧
        graph.LabelsExact store directions := by
    rcases built with both | ⟨rfl, reverse⟩
    · refine ⟨_, ?_, CallGraph.around_labels (by simp) both complete⟩
      cases direction <;> simp
    · exact ⟨_, by simp, CallGraph.around_labels (by simp) reverse complete⟩
  cases read.symm.trans read'
  have label_iff : ∀ id label,
      (∃ node ∈ graph.nodes, node.entity.id = id ∧ node.labels.get direction = some label) ↔
        IsLeast {level | tree.root.Stands level id} label := by
    intro id label
    rw [labels.node_label, grown.highest_iff top roomy, same, even]
    exact and_iff_right covered
  constructor
  · ext id
    constructor
    · rintro ⟨level, stands⟩
      have highest := isLeast_csInf (s := {level | tree.root.Stands level id}) ⟨level, stands⟩
      obtain ⟨node, member, numbered, label⟩ := (label_iff id _).2 highest
      exact ⟨node, member, numbered, by rw [label]; rfl⟩
    · rintro ⟨node, member, numbered, labelled⟩
      obtain ⟨label, here⟩ := Option.isSome_iff_exists.1 labelled
      exact ⟨label, ((label_iff id label).1 ⟨node, member, numbered, here⟩).1⟩
  · intro node member label here
    exact (label_iff _ label).1 ⟨node, member, rfl, here⟩

def recursiveCallers : CallTree where
  direction := .callers
  depth := 4
  root := .known ⟨recursiveDraft "even", 1, 1⟩ [] .whole
    [.known ⟨recursiveDraft "even", 1, 1⟩ [3] .loop [],
      .known ⟨recursiveDraft "main", 3, 1⟩ [6] .whole [],
      .known ⟨recursiveDraft "odd", 2, 1⟩ [5] .whole
        [.known ⟨recursiveDraft "even", 1, 1⟩ [2] .loop []]]
  nodeCount := 5

theorem recursive_tree_levels :
    recursiveStore.callTree {} 1 "even" .callers 4 = .ok (.found recursiveCallers) ∧
      recursiveStore.callGraph {} 1 "even" 4 = .ok (.found recursiveGraph) ∧
      recursiveStore.reverseCallGraph {} 1 "even" 4 = .ok (.found recursiveReverse) ∧
      IsLeast {level | recursiveCallers.root.Stands level 1} 0 ∧
      IsLeast {level | recursiveCallers.root.Stands level 2} 1 := by
  have tree : recursiveStore.callTree {} 1 "even" .callers 4 = .ok (.found recursiveCallers) := by
    cbv
  have levels := (tree_levels_are_graph_labels tree (by decide) (Or.inl recursiveGraph_found)
    rfl rfl).2
  have reverse := (tree_levels_are_graph_labels tree (by decide)
    (Or.inr ⟨rfl, recursiveReverse_found⟩) rfl rfl).2
  refine ⟨tree, recursiveGraph_found, recursiveReverse_found, ?_, ?_⟩
  · exact levels ⟨⟨recursiveDraft "even", 1, 1⟩, ⟨some 0, some 0⟩⟩ (by simp [recursiveGraph]) 0 rfl
  · exact reverse ⟨⟨recursiveDraft "odd", 2, 1⟩, ⟨some 1, none⟩⟩ (by simp [recursiveReverse]) 1 rfl

end Store

end DeclGraph
