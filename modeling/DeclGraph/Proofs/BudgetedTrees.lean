import Mathlib
import DeclGraph.Proofs.TraversalBounds

/-! What a smaller budget leaves of a tree. One budget pays for all nodes of a tree as they are met: for a
node before what is below it, and for that before the next neighbour. A smaller budget pays for the same
nodes until it has run out, and for none after that, wherever in the tree the unfolding is. So it leaves
those that come first. -/
namespace DeclGraph

structure NodeEntry where
  level : Nat
  entityId : Option Int
  symbol : String
  lines : List UInt32
  isLoop : Bool
  notFound : Bool
  deriving DecidableEq, Repr

mutual

def CallNode.preorder (level : Nat) : CallNode → List NodeEntry
  | .known entity lines ending children =>
    ⟨level, some entity.id, entity.symbol, lines, ending == .loop, false⟩ ::
      CallNode.preorders (level + 1) children
  | .unknown symbol lines => [⟨level, none, symbol, lines, false, true⟩]

def CallNode.preorders (level : Nat) : List CallNode → List NodeEntry
  | [] => []
  | node :: rest => node.preorder level ++ CallNode.preorders level rest

end

mutual

theorem CallNode.length_preorder (level : Nat) :
    ∀ node : CallNode, (node.preorder level).length = node.size
  | .known _ _ _ children => by
      rw [preorder, size, List.length_cons, CallNode.length_preorders (level + 1) children]
  | .unknown _ _ => rfl

theorem CallNode.length_preorders (level : Nat) :
    ∀ nodes : List CallNode, (CallNode.preorders level nodes).length = CallNode.sizes nodes
  | [] => rfl
  | node :: rest => by
      rw [preorders, sizes, List.length_append, CallNode.length_preorder level node,
        CallNode.length_preorders level rest]

end

theorem CallNode.size_childless {node : CallNode} (childless : node.children = []) :
    node.size = 1 := by
  cases node with
  | unknown => rfl
  | known entity lines ending children =>
      obtain rfl : children = [] := childless
      rfl

/-- A node that is no loop tells the same whatever its children are and however they end. -/
theorem CallNode.preorder_growth (level : Nat) (entity : Entity) (lines : List UInt32)
    (growth : CallTree.Growth) :
    (CallNode.known entity lines growth.ending growth.children).preorder level =
      ⟨level, some entity.id, entity.symbol, lines, false, false⟩ ::
        CallNode.preorders (level + 1) growth.children := by
  rw [preorder, beq_false_of_ne (CallTree.ending_ne_loop growth)]

namespace Budget

/-- A budget of `bound` nodes that pays for the same nodes as a larger one, as long as it can. -/
structure Narrows (bound : Nat) (budget small : Budget) : Prop where
  within : bound ≤ budget.limit
  limit : small.limit = bound
  used : small.used = min bound budget.used

variable {bound : Nat} {budget small paid further : Budget}

theorem Narrows.take? (narrows : Narrows bound budget small) (room : budget.used < bound)
    (taken : budget.take? = some paid) :
    ∃ less, small.take? = some less ∧ Narrows bound paid less := by
  have spent := take?_spent taken
  have same : small.used = budget.used := narrows.used.trans (Nat.min_eq_right room.le)
  refine ⟨{ small with used := small.used + 1 }, if_pos ?_, ?_, narrows.limit, ?_⟩
  · rw [same, narrows.limit]
    exact room
  · rw [spent.limit]
    exact narrows.within
  · rw [spent.used, same]
    exact (Nat.min_eq_right room).symm

/-- Once the smaller budget has run out, the larger one is spent on alone. -/
theorem Narrows.later (narrows : Narrows bound budget small) (full : bound ≤ budget.used)
    (later : budget.Later further) : Narrows bound further small where
  within := by
    rw [later.limit]
    exact narrows.within
  limit := narrows.limit
  used := by
    rw [narrows.used, Nat.min_eq_left full, Nat.min_eq_left (full.trans later.used)]

end Budget

/-- A limit inside the hard bound is the bound. -/
theorem Limits.nodeBound_eq {limits : Limits} {nodes : UInt64} (positive : 1 ≤ nodes.toNat)
    (bounded : nodes.toNat ≤ hardMaxNodes) :
    nodeBound { limits with maxNodes := nodes } = nodes.toNat := by
  rw [nodeBound, Nat.max_eq_right positive, Nat.min_eq_left bounded]

namespace CallTree

variable {store : Store} {direction : Direction} {trail : Trail} {budget small : Budget}
  {groups : List NeighborGroup} {growth : Growth} {levels bound : Nat} {id : Int}

structure Leaves (bound used : Nat) (whole part : Growth) : Prop where
  budget : Budget.Narrows bound whole.budget part.budget
  entries : ∀ level, CallNode.preorders level part.children =
    (CallNode.preorders level whole.children).take (bound - used)

section Branches
variable {grow : Int → Budget → Except Error Growth}

theorem branches_exhausted (store : Store) (grow : Int → Budget → Except Error Growth)
    (trail : Trail) (groups : List NeighborGroup) (full : small.limit ≤ small.used) :
    ∃ cut, branches store grow trail groups small = .ok ⟨[], cut, small⟩ := by
  cases groups with
  | nil => exact ⟨false, rfl⟩
  | cons group rest =>
      rw [branches, Budget.take?_eq_none_iff.2 full]
      exact ⟨true, rfl⟩

theorem branches_leaves (success : branches store grow trail groups budget = .ok growth)
    (narrows : Budget.Narrows bound budget small)
    (spends : ∀ {id budget growth}, grow id budget = .ok growth →
      budget.Spent (CallNode.sizes growth.children) growth.budget)
    (grows : ∀ {id budget small growth}, grow id budget = .ok growth →
      Budget.Narrows bound budget small →
        ∃ part, grow id small = .ok part ∧ Leaves bound budget.used growth part) :
    ∃ part, branches store grow trail groups small = .ok part ∧
      Leaves bound budget.used growth part := by
  induction groups generalizing budget small growth with
  | nil =>
      cases success
      exact ⟨⟨[], false, small⟩, rfl, narrows, fun _ => List.take_nil.symm⟩
  | cons group rest ih =>
      by_cases room : budget.used < bound
      · rcases branches_cases success with
          ⟨full, rfl⟩ | ⟨paid, node, next, others, taken, first, remaining, rfl⟩
        · exact absurd (narrows.within.trans full) room.not_ge
        · obtain ⟨less, taken', narrows'⟩ := narrows.take? room taken
          have paidFor := Budget.take?_spent taken
          have here : ∃ node' next', branch store grow trail group less = .ok (node', next') ∧
              Budget.Narrows bound next next' ∧
              ∀ level, node'.preorder level = (node.preorder level).take (bound - budget.used) := by
            rcases branch_other first with
              ⟨childless, rfl, again⟩ | ⟨entity, unfolded, grown, rfl, rfl, again⟩
            · refine ⟨node, less, again grow less, narrows', fun level => ?_⟩
              rw [List.take_of_length_le]
              rw [CallNode.length_preorder, CallNode.size_childless childless]
              omega
            · obtain ⟨part, grown', leaves⟩ := grows grown narrows'
              refine ⟨_, _, again grow less part grown', leaves.budget, fun level => ?_⟩
              -- The node itself takes one place of those that are left.
              have places : bound - budget.used = bound - paid.used + 1 := by
                rw [paidFor.used]
                omega
              rw [CallNode.preorder_growth, CallNode.preorder_growth, leaves.entries, places,
                List.take_succ_cons]
          obtain ⟨node', next', here, narrows'', entry⟩ := here
          obtain ⟨part, shown, leaves⟩ := ih remaining narrows''
          refine ⟨_, branches_cons taken' here shown, leaves.budget, fun level => ?_⟩
          have places : bound - next.used = bound - budget.used - (node.preorder level).length := by
            rw [(branch_spent spends taken first).used, CallNode.length_preorder]
            omega
          rw [CallNode.preorders, CallNode.preorders, List.take_append, entry, leaves.entries, places]
      · have full : bound ≤ budget.used := Nat.not_lt.1 room
        have spent : small.limit ≤ small.used := by
          rw [narrows.limit, narrows.used, Nat.min_eq_left full]
        obtain ⟨cut, stopped⟩ := branches_exhausted store grow trail (group :: rest) spent
        refine ⟨_, stopped, narrows.later full (branches_spent spends success).later, fun level => ?_⟩
        rw [Nat.sub_eq_zero_of_le full]
        rfl

end Branches

theorem grow_leaves (success : grow store direction levels trail id budget = .ok growth)
    (narrows : Budget.Narrows bound budget small) :
    ∃ part, grow store direction levels trail id small = .ok part ∧
      Leaves bound budget.used growth part := by
  induction levels generalizing trail id budget small growth with
  | zero =>
      obtain ⟨neighbors, read, same⟩ := bind_eq_ok.1 success
      cases same
      exact ⟨_, bind_eq_ok.2 ⟨neighbors, read, rfl⟩, narrows, fun _ => List.take_nil.symm⟩
  | succ levels ih =>
      obtain ⟨groups, read, success⟩ := bind_eq_ok.1 success
      obtain ⟨part, shown, leaves⟩ := branches_leaves success narrows grow_spent ih
      exact ⟨part, bind_eq_ok.2 ⟨groups, read, shown⟩, leaves⟩

end CallTree

namespace Store

/-- A smaller budget leaves the nodes of a tree that come first. Asking again with fewer nodes succeeds,
and the tree has as many of them as the budget allows, in the same order and places and with the same
lines and marks. -/
theorem budget_leaves_first_nodes (store : Store) (limits : Limits) (projectId : Int)
    (symbol : String) (direction : Direction) (depth : UInt32) (small large : UInt64)
    (positive : 1 ≤ small.toNat) (smaller : small.toNat ≤ large.toNat)
    (bounded : large.toNat ≤ hardMaxNodes) (tree : CallTree)
    (success : store.callTree { limits with maxNodes := large } projectId symbol direction depth =
      .ok (.found tree)) :
    (tree.root.preorder 0).length = tree.nodeCount ∧
    ∃ part, store.callTree { limits with maxNodes := small } projectId symbol direction depth =
        .ok (.found part) ∧
      part.nodeCount = min small.toNat tree.nodeCount ∧
      part.root.preorder 0 = (tree.root.preorder 0).take part.nodeCount := by
  have counted : (tree.root.preorder 0).length = tree.nodeCount := by
    rw [CallNode.length_preorder, (callTree_bounded success).counted]
  refine ⟨counted, ?_⟩
  obtain ⟨root, growth, read, grown, rfl⟩ := callTree_found_iff.1 success
  rw [Limits.nodeBound_eq (positive.trans smaller) bounded] at grown
  have narrows : Budget.Narrows small.toNat ⟨large.toNat, 1⟩ ⟨small.toNat, 1⟩ :=
    ⟨smaller, rfl, (Nat.min_eq_right positive).symm⟩
  obtain ⟨part, grown', leaves⟩ := CallTree.grow_leaves grown narrows
  rw [← Limits.nodeBound_eq positive (smaller.trans bounded)] at grown'
  refine ⟨_, callTree_found_iff.2 ⟨root, part, read, grown', rfl⟩, leaves.budget.used, ?_⟩
  -- The root takes the first place, and no place is left over beyond the whole tree.
  obtain ⟨rest, places⟩ := Nat.exists_eq_add_of_le' positive
  dsimp only at counted leaves ⊢
  rw [leaves.budget.used, ← counted, ← List.take_eq_take_min, CallNode.preorder_growth,
    CallNode.preorder_growth, leaves.entries, places, List.take_succ_cons, Nat.add_sub_cancel]

def recursivePair : CallTree where
  direction := .callees
  depth := 4
  root := .known ⟨recursiveDraft "even", 1, 1⟩ [] .truncated
    [.known ⟨recursiveDraft "odd", 2, 1⟩ [2] .truncated []]
  nodeCount := 2

theorem recursive_first_nodes :
    recursiveStore.callTree { maxNodes := 2000 } 1 "even" .callees 4 =
        .ok (.found recursiveCallees) ∧
      recursiveStore.callTree { maxNodes := 2 } 1 "even" .callees 4 = .ok (.found recursivePair) ∧
      recursivePair.root.preorder 0 = (recursiveCallees.root.preorder 0).take 2 := by
  have whole : recursiveStore.callTree { maxNodes := 2000 } 1 "even" .callees 4 =
      .ok (.found recursiveCallees) := by
    cbv
  have pair : recursiveStore.callTree { maxNodes := 2 } 1 "even" .callees 4 =
      .ok (.found recursivePair) := by
    cbv
  obtain ⟨-, part, answer, -, first⟩ := budget_leaves_first_nodes recursiveStore {} 1 "even" .callees
    4 2 2000 (by decide) (by decide) (by decide) recursiveCallees whole
  cases pair.symm.trans answer
  exact ⟨whole, pair, first⟩

end Store
end DeclGraph
