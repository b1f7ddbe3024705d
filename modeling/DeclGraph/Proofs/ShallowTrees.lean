import Mathlib
import DeclGraph.Proofs.TraversalBounds

/-! Shallow trees out of deep ones. Where no budget runs out, a tree that is to go less deep unfolds the
same declarations in the same order and comes to the same loops. Only on its last level does it do
something else: it asks whether there is anything to list, where the deep tree lists it. -/
namespace DeclGraph

/-- The tree without all that is more than so many levels below its root. A node that loses its children
tells so. -/
def CallNode.cutBelow : Nat → CallNode → CallNode
  | _, .unknown symbol lines => .unknown symbol lines
  | 0, .known entity lines ending children =>
    .known entity lines (if children.isEmpty then ending else .truncated) []
  | levels + 1, .known entity lines ending children =>
    .known entity lines ending (children.map (cutBelow levels))

theorem CallNode.cutBelow_childless {node : CallNode} (childless : node.children = [])
    (levels : Nat) : node.cutBelow levels = node := by
  cases node with
  | unknown => cases levels <;> rfl
  | known entity lines ending children =>
      obtain rfl : children = [] := childless
      cases levels <;> rfl

/-- A budget of which less is used pays for whatever the other one pays for. -/
theorem Budget.Later.take? {budget small paid : Budget} (later : small.Later budget)
    (taken : budget.take? = some paid) :
    ∃ less, small.take? = some less ∧ less.Later paid := by
  have spent := take?_spent taken
  have room : small.used < small.limit := by
    by_contra full
    have refused : budget.take? = none :=
      take?_eq_none_iff.2 (later.limit ▸ (Nat.not_lt.1 full).trans later.used)
    simp [refused] at taken
  refine ⟨_, if_pos room, spent.limit.trans later.limit, ?_⟩
  rw [spent.used]
  exact Nat.succ_le_succ later.used

namespace CallTree

variable {store : Store} {direction : Direction} {trail : Trail} {budget small : Budget}
  {groups : List NeighborGroup} {growth : Growth} {levels more : Nat} {id : Int}

structure CutGrowth (levels : Nat) (deep shallow : Growth) : Prop where
  budget : shallow.budget.Later deep.budget
  node : ∀ entity lines, (CallNode.known entity lines deep.ending deep.children).cutBelow levels =
    .known entity lines shallow.ending shallow.children

section Branches
variable {deep shallow : Int → Budget → Except Error Growth}

theorem branches_whole (success : branches store deep trail groups budget = .ok growth)
    (roomy : growth.budget.used < growth.budget.limit) : growth.ending = .whole := by
  have uncut : ¬ growth.cut = true := fun cut => roomy.not_ge (branches_cut success cut)
  exact if_neg uncut

theorem branches_isEmpty (success : branches store deep trail groups budget = .ok growth)
    (roomy : growth.budget.used < growth.budget.limit) :
    growth.children.isEmpty = groups.isEmpty := by
  cases groups with
  | nil =>
      cases success
      rfl
  | cons group rest =>
      rcases branches_cases success with ⟨full, rfl⟩ | ⟨_, _, _, _, -, -, -, rfl⟩
      · exact absurd full roomy.not_ge
      · rfl

theorem branches_cutBelow (success : branches store deep trail groups budget = .ok growth)
    (roomy : growth.budget.used < growth.budget.limit) (later : small.Later budget)
    (spends : ∀ {id budget growth}, deep id budget = .ok growth →
      budget.Spent (CallNode.sizes growth.children) growth.budget)
    (grows : ∀ {id budget small growth}, deep id budget = .ok growth →
      growth.budget.used < growth.budget.limit → small.Later budget →
        ∃ part, shallow id small = .ok part ∧ CutGrowth levels growth part) :
    ∃ part, branches store shallow trail groups small = .ok part ∧ part.cut = false ∧
      part.budget.Later growth.budget ∧
      part.children = growth.children.map (CallNode.cutBelow levels) := by
  -- Induction on the neighbours. The shallow tree has used no more of its budget at any time, so what
  -- the deep one can pay for it can pay for.
  induction groups generalizing budget small growth with
  | nil =>
      cases success
      exact ⟨⟨[], false, small⟩, rfl, rfl, later, rfl⟩
  | cons group rest ih =>
      rcases branches_cases success with
        ⟨full, rfl⟩ | ⟨paid, node, next, others, taken, first, remaining, rfl⟩
      · exact absurd full roomy.not_ge
      · obtain ⟨less, taken', later'⟩ := later.take? taken
        have onward := (branches_spent spends remaining).later
        have here : ∃ next', branch store shallow trail group less =
            .ok (node.cutBelow levels, next') ∧ next'.Later next := by
          rcases branch_other first with
            ⟨childless, rfl, again⟩ | ⟨entity, unfolded, grown, rfl, rfl, again⟩
          · rw [CallNode.cutBelow_childless childless]
            exact ⟨less, again shallow less, later'⟩
          · have unfolded_roomy : unfolded.budget.used < unfolded.budget.limit := by
              rw [← onward.limit]
              exact onward.used.trans_lt roomy
            obtain ⟨part, shallower, cut⟩ := grows grown unfolded_roomy later'
            rw [cut.node]
            exact ⟨part.budget, again shallow less part shallower, cut.budget⟩
        obtain ⟨next', here, later''⟩ := here
        obtain ⟨part, shown, uncut, behind, children⟩ := ih remaining roomy later''
        refine ⟨_, branches_cons taken' here shown, uncut, behind, ?_⟩
        rw [List.map_cons, children]

end Branches

/-- Unfolding over fewer levels gives what unfolding over more of them gives, cut. -/
theorem grow_cutBelow
    (success : grow store direction (levels + more) trail id budget = .ok growth)
    (roomy : growth.budget.used < growth.budget.limit) (later : small.Later budget) :
    ∃ part, grow store direction levels trail id small = .ok part ∧
      CutGrowth levels growth part := by
  induction levels generalizing trail id budget small growth with
  | zero =>
      cases more with
      | zero =>
          obtain ⟨neighbors, read, same⟩ := bind_eq_ok.1 success
          cases same
          exact ⟨_, bind_eq_ok.2 ⟨neighbors, read, rfl⟩, later, fun _ _ => rfl⟩
      | succ more =>
          -- The one looks for neighbours, the other lists their groups.
          rw [Nat.zero_add] at success
          obtain ⟨groups, grouped, success⟩ := bind_eq_ok.1 success
          obtain ⟨neighbors, read, same⟩ := bind_eq_ok.1 grouped
          cases same
          refine ⟨⟨[], !neighbors.isEmpty, small⟩, bind_eq_ok.2 ⟨neighbors, read, rfl⟩, ?_, ?_⟩
          · exact later.trans (branches_spent grow_spent success).later
          · intro entity lines
            have empty : growth.children.isEmpty = neighbors.isEmpty := by
              rw [branches_isEmpty success roomy, Bool.eq_iff_iff, List.isEmpty_iff, List.isEmpty_iff]
              exact NeighborGroup.collect_eq_nil_iff neighbors
            rw [CallNode.cutBelow, branches_whole success roomy, empty, Growth.ending]
            cases neighbors <;> rfl
  | succ levels ih =>
      rw [Nat.succ_add] at success
      obtain ⟨groups, read, success⟩ := bind_eq_ok.1 success
      obtain ⟨part, shown, uncut, behind, children⟩ :=
        branches_cutBelow success roomy later grow_spent ih
      refine ⟨part, bind_eq_ok.2 ⟨groups, read, shown⟩, behind, fun entity lines => ?_⟩
      rw [CallNode.cutBelow, branches_whole success roomy, children, Growth.ending, uncut]
      rfl

end CallTree

namespace Store

/-- A tree whose budget has not run out holds all shallower ones: asking for less depth succeeds, and
gives the tree cut below that depth. -/
theorem shallow_tree_is_deep_tree_cut (store : Store) (limits : Limits) (projectId : Int)
    (symbol : String) (direction : Direction) (shallow deep : UInt32) (tree : CallTree)
    (shallower : limits.clamped.treeDepth shallow ≤ limits.clamped.treeDepth deep)
    (success : store.callTree limits projectId symbol direction deep = .ok (.found tree))
    (roomy : tree.nodeCount < limits.clamped.maxNodes.toNat) :
    ∃ smaller, store.callTree limits projectId symbol direction shallow = .ok (.found smaller) ∧
      smaller.direction = tree.direction ∧ smaller.depth = limits.clamped.treeDepth shallow ∧
      smaller.root = tree.root.cutBelow smaller.depth ∧
      smaller.nodeCount = smaller.root.size := by
  obtain ⟨root, growth, read, grown, rfl⟩ := callTree_found_iff.1 success
  obtain ⟨more, levels⟩ := Nat.exists_eq_add_of_le shallower
  rw [levels] at grown
  have unspent : growth.budget.used < growth.budget.limit := by
    rw [(CallTree.grow_spent grown).limit, ← limits.clamped_nodeBound]
    exact roomy
  obtain ⟨part, grown', cut⟩ := CallTree.grow_cutBelow grown unspent (.refl _)
  have answer := callTree_found_iff.2 ⟨root, part, read, grown', rfl⟩
  exact ⟨_, answer, rfl, rfl, (cut.node root []).symm, (callTree_bounded answer).counted⟩

theorem recursive_tree_cut :
    recursiveStore.callTree {} 1 "even" .callees 4 = .ok (.found recursiveCallees) ∧
      ∃ smaller, recursiveStore.callTree {} 1 "even" .callees 1 = .ok (.found smaller) ∧
        smaller.root = recursiveCallees.root.cutBelow 1 ∧
        recursiveCallees.root.cutBelow 1 = recursiveTree.root := by
  have found : recursiveStore.callTree {} 1 "even" .callees 4 = .ok (.found recursiveCallees) := by
    cbv
  obtain ⟨smaller, answer, -, depth, cut, -⟩ := shallow_tree_is_deep_tree_cut recursiveStore {} 1
    "even" .callees 1 4 recursiveCallees (by decide) found (by decide)
  have one : smaller.depth = 1 := depth
  exact ⟨found, smaller, answer, one ▸ cut, rfl⟩

end Store

end DeclGraph
