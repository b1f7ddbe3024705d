import Mathlib
import DeclGraph.Proofs.GrownTrees

/-! What the nodes of a call tree say is true of the store. A node that is unfolded lists its groups
of calls from the first one on, and tells whether it lists them all; the budget is the only reason
not to, above the last level. Since budgets only shrink, one that is not used up in the end has never
been. -/
namespace DeclGraph

mutual

def CallNode.size : CallNode → Nat
  | .known _ _ _ children => CallNode.sizes children + 1
  | .unknown _ _ => 1

def CallNode.sizes : List CallNode → Nat
  | [] => 0
  | node :: rest => node.size + CallNode.sizes rest

end

namespace CallNode

def entity? : CallNode → Option Entity
  | known entity _ _ _ => some entity
  | unknown _ _ => none

def children : CallNode → List CallNode
  | known _ _ _ children => children
  | unknown _ _ => []

def IsLoop : CallNode → Prop
  | known _ _ ending _ => ending = .loop
  | unknown _ _ => False

def Truncated : CallNode → Prop
  | known _ _ ending _ => ending = .truncated
  | unknown _ _ => False

def NotFound : CallNode → Prop
  | known _ _ _ _ => False
  | unknown _ _ => True

inductive Shows (store : Store) : NeighborGroup → CallNode → Prop
  | declared {group : NeighborGroup} {entity : Entity} {ending : Ending} {children : List CallNode}
      (leads : group.entityId = some entity.id) :
      Shows store group (.known entity group.lines ending children)
  | missing {group : NeighborGroup} (absent : ∀ id, group.entityId = some id → ¬ store.Holds id) :
      Shows store group (.unknown group.symbol group.lines)

inductive Occurs (root : CallNode) : Nat → List Int → CallNode → Prop
  | root : Occurs root 0 [] root
  | child {level : Nat} {above : List Int} {entity : Entity} {lines : List UInt32} {ending : Ending}
      {children : List CallNode} {node : CallNode}
      (parent : Occurs root level above (.known entity lines ending children))
      (member : node ∈ children) : Occurs root (level + 1) (entity.id :: above) node

/-- A node that is not found stands for calls of the declaration above it that lead to nothing stored.
In a tree of callers there is none. -/
structure IsMissing (store : Store) (direction : Direction) (above : List Int) (node : CallNode) :
    Prop where
  undeclared : node.entity? = none
  childless : node.children = []
  unmarked : ¬ node.IsLoop ∧ ¬ node.Truncated
  called : direction = .callees
  dangling : ∃ source rest groups group, above = source :: rest ∧
    store.groups direction source = .ok groups ∧ group ∈ groups ∧ Shows store group node ∧
      ∀ id, group.entityId = some id → ¬ store.Holds id

/-- A node that is unfolded lists the groups of calls of its declaration from the first one on: none
on the last level, and above it all of them if the budget has not run out. -/
structure Lists (store : Store) (direction : Direction) (last full : Prop) (id : Int)
    (groups listed : List NeighborGroup) (node : CallNode) : Prop where
  read : store.groups direction id = .ok groups
  front : listed <+: groups
  shown : List.Forall₂ (Shows store) listed node.children
  cut : node.Truncated ↔ listed ≠ groups
  bottom : last → listed = []
  whole : full → ¬ last → listed = groups

structure IsDeclared (store : Store) (direction : Direction) (last full : Prop) (above : List Int)
    (entity : Entity) (node : CallNode) : Prop where
  declared : node.entity? = some entity
  stored : store.entity? entity.id = .ok (some entity)
  loop_iff : node.IsLoop ↔ entity.id ∈ above
  loop_bare : node.IsLoop → node.children = [] ∧ ¬ node.Truncated
  unfolded : ¬ node.IsLoop →
    ∃ groups listed, Lists store direction last full entity.id groups listed node

/-- A node as unfolding leaves it, with `levels` to go below it and `trail` above it. `full` stands
for a budget that has not run out. -/
inductive Grown (store : Store) (direction : Direction) (full : Prop) :
    Nat → List Int → CallNode → Prop
  | missing {levels : Nat} {source : Int} {trail : List Int} {groups : List NeighborGroup}
      {group : NeighborGroup} (read : store.groups direction source = .ok groups)
      (member : group ∈ groups) (absent : ∀ id, group.entityId = some id → ¬ store.Holds id) :
      Grown store direction full levels (source :: trail) (.unknown group.symbol group.lines)
  | loop {levels : Nat} {trail : List Int} {entity : Entity} {lines : List UInt32}
      (stored : store.entity? entity.id = .ok (some entity)) (above : entity.id ∈ trail) :
      Grown store direction full levels trail (.known entity lines .loop [])
  | unfolded {levels : Nat} {trail : List Int} {entity : Entity} {lines : List UInt32}
      {ending : Ending} {children : List CallNode} {groups listed : List NeighborGroup}
      (stored : store.entity? entity.id = .ok (some entity)) (fresh : entity.id ∉ trail)
      (unlooped : ending ≠ .loop)
      (lists : Lists store direction (levels = 0) full entity.id groups listed
        (.known entity lines ending children))
      (below : ∀ child ∈ children,
        Grown store direction full (levels - 1) (entity.id :: trail) child) :
      Grown store direction full levels trail (.known entity lines ending children)

/-- No node lies below the last level, and each is as unfolding leaves it there. -/
theorem Occurs.grown {store : Store} {direction : Direction} {full : Prop} {depth level : Nat}
    {above : List Int} {root node : CallNode} (occurs : root.Occurs level above node)
    (grown : Grown store direction full depth [] root) :
    level ≤ depth ∧ Grown store direction full (depth - level) above node := by
  induction occurs with
  | root => exact ⟨Nat.zero_le depth, grown⟩
  | @child level _ _ _ _ _ _ _ member ih =>
      obtain ⟨bound, parent⟩ := ih
      cases parent with
      | loop => simp at member
      | unfolded _ _ _ lists below =>
          -- On the last level nothing is listed, so a node with a child is above it.
          have inner : depth - level ≠ 0 := by
            intro last
            have shown := lists.shown
            rw [lists.bottom last] at shown
            cases shown
            simp at member
          exact ⟨by omega, below _ member⟩

theorem IsMissing.ofGroup {store : Store} {direction : Direction} {source : Int} {rest : List Int}
    {groups : List NeighborGroup} {group : NeighborGroup}
    (read : store.groups direction source = .ok groups) (member : group ∈ groups)
    (absent : ∀ id, group.entityId = some id → ¬ store.Holds id) :
    IsMissing store direction (source :: rest) (.unknown group.symbol group.lines) where
  undeclared := rfl
  childless := rfl
  unmarked := ⟨id, id⟩
  called := by
    cases direction with
    | callees => rfl
    | callers =>
        obtain ⟨other, leads, held⟩ := Store.groups_callers_stored read member
        exact absurd held (absent other leads)
  dangling := ⟨source, rest, groups, group, rfl, read, member, .missing absent, absent⟩

end CallNode

namespace Budget

structure Later (budget later : Budget) : Prop where
  limit : later.limit = budget.limit
  used : budget.used ≤ later.used

theorem Later.refl (budget : Budget) : Later budget budget :=
  ⟨rfl, Nat.le_refl _⟩

theorem Later.trans {first second third : Budget} (early : Later first second)
    (late : Later second third) : Later first third :=
  ⟨late.limit.trans early.limit, Nat.le_trans early.used late.used⟩

structure Spent (budget : Budget) (count : Nat) (later : Budget) : Prop where
  limit : later.limit = budget.limit
  used : later.used = budget.used + count
  within : budget.used ≤ budget.limit → later.used ≤ later.limit

theorem Spent.nothing (budget : Budget) : Spent budget 0 budget :=
  ⟨rfl, rfl, id⟩

theorem Spent.trans {first second third : Budget} {early late : Nat}
    (before : Spent first early second) (after : Spent second late third) :
    Spent first (early + late) third where
  limit := after.limit.trans before.limit
  used := by rw [after.used, before.used, Nat.add_assoc]
  within inside := after.within (before.within inside)

theorem take?_spent {budget next : Budget} (taken : budget.take? = some next) :
    Spent budget 1 next := by
  unfold take? at taken
  split at taken
  next room =>
    cases taken
    exact ⟨rfl, rfl, fun _ => room⟩
  next => cases taken

theorem Spent.later {budget later : Budget} {count : Nat} (spent : Spent budget count later) :
    Later budget later :=
  ⟨spent.limit, spent.used ▸ Nat.le_add_right _ _⟩

theorem take?_getD_limit (budget : Budget) : (budget.take?.getD budget).limit = budget.limit := by
  cases taken : budget.take? with
  | none => rfl
  | some paid => exact (take?_spent taken).limit

theorem take?_eq_none_iff {budget : Budget} : budget.take? = none ↔ budget.limit ≤ budget.used := by
  simp [take?]

end Budget

/-! How a node ends depends on the budget only in whether it has run out by then. -/

namespace CallTree
variable {store : Store} {direction : Direction} {trail : Trail} {budget next final : Budget}
  {group : NeighborGroup} {groups : List NeighborGroup} {node : CallNode} {growth : Growth}
  {levels : Nat} {id : Int}

section Branches
variable {grow : Int → Budget → Except Error Growth}

/-- The node for one neighbour: a missing one, a loop, or what comes of growing it. -/
theorem branch_cases (success : branch store grow trail group budget = .ok (node, next)) :
    (node = .unknown group.symbol group.lines ∧ next = budget ∧
      ∀ id, group.entityId = some id → ¬ store.Holds id) ∨
    ∃ entity, group.entityId = some entity.id ∧ store.entity? entity.id = .ok (some entity) ∧
      ((node = .known entity group.lines .loop [] ∧ next = budget ∧ entity.id ∈ trail) ∨
        ∃ growth, grow entity.id budget = .ok growth ∧ entity.id ∉ trail ∧ next = growth.budget ∧
          node = .known entity group.lines growth.ending growth.children) := by
  unfold branch at success
  split at success
  next unresolved =>
    cases success
    exact Or.inl ⟨rfl, rfl, by simp [unresolved]⟩
  next id resolved =>
    obtain ⟨found, read, success⟩ := bind_eq_ok.1 success
    cases found with
    | none =>
        cases success
        refine Or.inl ⟨rfl, rfl, ?_⟩
        rintro other leads
        cases resolved.symm.trans leads
        exact Store.entity?_eq_none_iff.1 read
    | some entity =>
        obtain rfl : entity.id = id := Store.entity?_id read
        refine Or.inr ⟨entity, resolved, read, ?_⟩
        simp only at success
        split at success
        next above =>
          cases success
          exact Or.inl ⟨rfl, rfl, List.contains_iff_mem.1 above⟩
        next fresh =>
          obtain ⟨growth, grown, success⟩ := bind_eq_ok.1 success
          cases success
          exact Or.inr ⟨growth, grown, mt List.contains_iff_mem.2 fresh, rfl, rfl⟩

/-- What another budget or another way to grow makes of a neighbour: the same node, if it has nothing
below it by nature, or what that way to grow gives. -/
theorem branch_other (success : branch store grow trail group budget = .ok (node, next)) :
    (node.children = [] ∧ next = budget ∧
      ∀ grow' budget', branch store grow' trail group budget' = .ok (node, budget')) ∨
    ∃ entity growth, grow entity.id budget = .ok growth ∧ next = growth.budget ∧
      node = .known entity group.lines growth.ending growth.children ∧
      ∀ grow' budget' growth', grow' entity.id budget' = .ok growth' →
        branch store grow' trail group budget' =
          .ok (.known entity group.lines growth'.ending growth'.children, growth'.budget) := by
  unfold branch at success ⊢
  split at success
  next =>
    cases success
    exact Or.inl ⟨rfl, rfl, fun _ _ => rfl⟩
  next id _ =>
    obtain ⟨found, read, success⟩ := bind_eq_ok.1 success
    cases found with
    | none =>
        cases success
        exact Or.inl ⟨rfl, rfl, fun _ _ => bind_eq_ok.2 ⟨none, read, rfl⟩⟩
    | some entity =>
        obtain rfl : entity.id = id := Store.entity?_id read
        simp only at success
        split at success
        next above =>
          cases success
          exact Or.inl ⟨rfl, rfl, fun _ _ => bind_eq_ok.2 ⟨some entity, read, if_pos above⟩⟩
        next fresh =>
          obtain ⟨growth, grown, success⟩ := bind_eq_ok.1 success
          cases success
          refine Or.inr ⟨entity, growth, grown, rfl, rfl, fun _ _ growth' grown' => ?_⟩
          exact bind_eq_ok.2
            ⟨some entity, read, (if_neg fresh).trans (bind_eq_ok.2 ⟨growth', grown', rfl⟩)⟩

/-- The first of several neighbours: the budget refuses it, or its node comes before the others. -/
theorem branches_cases (success : branches store grow trail (group :: groups) budget = .ok growth) :
    (budget.limit ≤ budget.used ∧ growth = ⟨[], true, budget⟩) ∨
    ∃ paid node next others, budget.take? = some paid ∧
      branch store grow trail group paid = .ok (node, next) ∧
      branches store grow trail groups next = .ok others ∧
      growth = ⟨node :: others.children, others.cut, others.budget⟩ := by
  unfold branches at success
  split at success
  next refused =>
    cases success
    exact Or.inl ⟨Budget.take?_eq_none_iff.1 refused, rfl⟩
  next paid taken =>
    obtain ⟨⟨node, next⟩, first, success⟩ := bind_eq_ok.1 success
    obtain ⟨others, remaining, success⟩ := bind_eq_ok.1 success
    cases success
    exact Or.inr ⟨paid, node, next, others, taken, first, remaining, rfl⟩

theorem branches_cons {paid : Budget} {others : Growth} (taken : budget.take? = some paid)
    (first : branch store grow trail group paid = .ok (node, next))
    (remaining : branches store grow trail groups next = .ok others) :
    branches store grow trail (group :: groups) budget =
      .ok ⟨node :: others.children, others.cut, others.budget⟩ := by
  rw [branches, taken]
  exact bind_eq_ok.2 ⟨(node, next), first, bind_eq_ok.2 ⟨others, remaining, rfl⟩⟩

/-- A neighbour is paid for with its own node and all below it. -/
theorem branch_spent {paid : Budget}
    (grows : ∀ {id budget growth}, grow id budget = .ok growth →
      budget.Spent (CallNode.sizes growth.children) growth.budget)
    (taken : budget.take? = some paid)
    (success : branch store grow trail group paid = .ok (node, next)) :
    budget.Spent node.size next := by
  have root := Budget.take?_spent taken
  rcases branch_cases success with
    ⟨rfl, rfl, -⟩ | ⟨_, -, -, ⟨rfl, rfl, -⟩ | ⟨_, grown, -, rfl, rfl⟩⟩
  · exact root
  · exact root
  · rw [CallNode.size, Nat.add_comm]
    exact root.trans (grows grown)

theorem branches_spent
    (grows : ∀ {id budget growth}, grow id budget = .ok growth →
      budget.Spent (CallNode.sizes growth.children) growth.budget)
    (success : branches store grow trail groups budget = .ok growth) :
    budget.Spent (CallNode.sizes growth.children) growth.budget := by
  induction groups generalizing budget growth with
  | nil =>
      cases success
      exact .nothing budget
  | cons group rest ih =>
      rcases branches_cases success with
        ⟨-, rfl⟩ | ⟨paid, node, next, others, taken, first, remaining, rfl⟩
      · exact .nothing budget
      · exact (branch_spent grows taken first).trans (ih remaining)

/-- Nodes are left out only once the budget is used up. -/
theorem branches_cut (success : branches store grow trail groups budget = .ok growth)
    (cut : growth.cut = true) : growth.budget.limit ≤ growth.budget.used := by
  induction groups generalizing budget growth with
  | nil =>
      cases success
      cases cut
  | cons group rest ih =>
      rcases branches_cases success with ⟨spent, rfl⟩ | ⟨_, _, _, _, -, -, remaining, rfl⟩
      · exact spent
      · have spent := ih remaining
        exact spent cut

/-- The nodes for a list of neighbours show them in order, as far as they go. -/
theorem branches_grown {full : Prop} {source : Int} {all : List NeighborGroup}
    (read : store.groups direction source = .ok all) (within : ∀ group ∈ groups, group ∈ all)
    (spends : ∀ {id budget growth}, grow id budget = .ok growth →
      budget.Spent (CallNode.sizes growth.children) growth.budget)
    (grows : ∀ {entity budget growth lines}, grow entity.id budget = .ok growth →
      growth.budget.Later final → store.entity? entity.id = .ok (some entity) →
      entity.id ∉ source :: trail → CallNode.Grown store direction full levels (source :: trail)
        (.known entity lines growth.ending growth.children))
    (success : branches store grow (source :: trail) groups budget = .ok growth)
    (before : growth.budget.Later final) :
    ∃ listed, listed <+: groups ∧ List.Forall₂ (CallNode.Shows store) listed growth.children ∧
      (growth.cut = true ↔ listed ≠ groups) ∧
      ∀ child ∈ growth.children,
        CallNode.Grown store direction full levels (source :: trail) child := by
  -- Induction on the neighbours. The budget of every node but the last is spent on by later ones, so
  -- `final` is later than the budget after each of them.
  induction groups generalizing budget growth with
  | nil =>
      cases success
      exact ⟨[], List.prefix_rfl, .nil, by simp, by simp⟩
  | cons group rest ih =>
      rcases branches_cases success with
        ⟨-, rfl⟩ | ⟨paid, node, next, others, -, first, remaining, rfl⟩
      · exact ⟨[], List.nil_prefix, .nil, by simp, by simp⟩
      · obtain ⟨member, within⟩ := List.forall_mem_cons.1 within
        have spent := (branches_spent spends remaining).later
        obtain ⟨listed, front, shown, cut, below⟩ := ih within remaining before
        have here : CallNode.Shows store group node ∧
            CallNode.Grown store direction full levels (source :: trail) node := by
          rcases branch_cases first with ⟨rfl, -, absent⟩ |
            ⟨entity, leads, stored, ⟨rfl, -, above⟩ | ⟨growth, grown, fresh, rfl, rfl⟩⟩
          · exact ⟨.missing absent, .missing read member absent⟩
          · exact ⟨.declared leads, .loop stored above⟩
          · exact ⟨.declared leads, grows grown (spent.trans before) stored fresh⟩
        refine ⟨group :: listed, List.cons_prefix_cons.2 ⟨rfl, front⟩, .cons here.1 shown, ?_, ?_⟩
        · simpa using cut
        · exact List.forall_mem_cons.2 ⟨here.2, below⟩

end Branches

/-- As many nodes are taken from the budget as are in the tree. -/
theorem grow_spent (success : grow store direction levels trail id budget = .ok growth) :
    budget.Spent (CallNode.sizes growth.children) growth.budget := by
  induction levels generalizing trail id budget growth with
  | zero =>
      obtain ⟨neighbors, -, same⟩ := bind_eq_ok.1 success
      cases same
      exact .nothing budget
  | succ levels ih =>
      obtain ⟨groups, -, success⟩ := bind_eq_ok.1 success
      exact branches_spent ih success

theorem ending_ne_loop (growth : Growth) : growth.ending ≠ .loop := by
  unfold Growth.ending
  split <;> simp

theorem ending_eq_truncated_iff (growth : Growth) :
    growth.ending = .truncated ↔ growth.cut = true := by
  unfold Growth.ending
  split <;> simp_all

/-- What is unfolded shows the groups of calls of its declaration, and all of them if the budget is
not used up in the end and this is not the last level. -/
theorem grow_grown {entity : Entity} {lines : List UInt32}
    (success : grow store direction levels trail entity.id budget = .ok growth)
    (before : growth.budget.Later final) (stored : store.entity? entity.id = .ok (some entity))
    (fresh : entity.id ∉ trail) :
    CallNode.Grown store direction (final.used < final.limit) levels trail
      (.known entity lines growth.ending growth.children) := by
  induction levels generalizing trail entity lines budget growth with
  | zero =>
      obtain ⟨neighbors, read, same⟩ := bind_eq_ok.1 success
      cases same
      refine .unfolded stored fresh (ending_ne_loop _) ⟨bind_eq_ok.2 ⟨neighbors, read, rfl⟩,
        List.nil_prefix, .nil, ?_, fun _ => rfl, by simp⟩ (by simp)
      rw [CallNode.Truncated, ending_eq_truncated_iff, ne_comm, ne_eq,
        NeighborGroup.collect_eq_nil_iff]
      simp
  | succ levels ih =>
      obtain ⟨groups, read, success⟩ := bind_eq_ok.1 success
      obtain ⟨listed, front, shown, cut, below⟩ :=
        branches_grown read (fun _ member => member) grow_spent ih success before
      refine .unfolded stored fresh (ending_ne_loop growth)
        ⟨read, front, shown, ?_, by simp, ?_⟩ below
      · rw [CallNode.Truncated, ending_eq_truncated_iff, cut]
      · intro unspent _
        -- Had the budget cut this list short, it would be used up here and so in the end.
        by_contra proper
        have spent := branches_cut success (cut.2 proper)
        rw [before.limit] at unspent
        have := before.used
        omega

theorem build_grown {depth : Nat} (positive : 0 < depth) {root : Entity} {tree : CallTree}
    (success : build store direction depth budget root = .ok tree)
    (stored : store.entity? root.id = .ok (some root)) :
    CallNode.Grown store direction (tree.nodeCount < budget.limit) tree.depth [] tree.root := by
  obtain ⟨growth, grown, rfl⟩ := (build_eq_ok_iff positive).1 success
  have limit : growth.budget.limit = budget.limit :=
    (grow_spent grown).limit.trans budget.take?_getD_limit
  rw [← limit]
  exact grow_grown grown (.refl _) stored (by simp)

end CallTree

theorem Limits.clamped_maxNodes (limits : Limits) :
    limits.clamped.maxNodes.toNat = clamp 1 hardMaxNodes limits.maxNodes.toNat := by
  have small : clamp 1 hardMaxNodes limits.maxNodes.toNat < UInt64.size := by
    simp only [clamp, hardMaxNodes, UInt64.size]
    omega
  exact UInt64.toNat_ofNat_of_lt' small

theorem Budget.ofLimit_clamped (limits : Limits) :
    (ofLimit limits.clamped.maxNodes.toNat).limit = limits.clamped.maxNodes.toNat := by
  have positive : 0 < clamp 1 hardMaxNodes limits.maxNodes.toNat := Nat.le_max_left _ _
  have bounded : clamp 1 hardMaxNodes limits.maxNodes.toNat ≤ hardMaxNodes := by
    simp only [clamp, hardMaxNodes]
    omega
  rw [limits.clamped_maxNodes]
  simp only [ofLimit, Nat.ne_of_gt positive, if_false, Nat.min_eq_left bounded]

namespace Store

/-- Every node of a call tree is right about the store: it is at most as deep as the tree, and it is
either missing or a declaration. The tree lists all calls above its last level if it has fewer nodes
than the limit allows. -/
theorem call_tree_annotations_exact {store : Store} {limits : Limits} {projectId : Int}
    {symbol : String} {direction : Direction} {depth : UInt32} {tree : CallTree}
    (success : store.callTree limits projectId symbol direction depth = .ok (.found tree))
    {level : Nat} {above : List Int} {node : CallNode} (occurs : tree.root.Occurs level above node) :
    level ≤ tree.depth ∧
    (node.NotFound → node.IsMissing store direction above) ∧
    (¬ node.NotFound → ∃ entity, node.IsDeclared store direction (level = tree.depth)
      (tree.nodeCount < limits.clamped.maxNodes.toNat) above entity) := by
  obtain ⟨root?, read, success⟩ := bind_eq_ok.1 success
  cases root? with
  | none => cases success
  | some root =>
      obtain ⟨built, success, same⟩ := bind_eq_ok.1 success
      cases same
      have grown := CallTree.build_grown (limits.clamped.treeDepth_pos _) success (root?_stored read)
      rw [Budget.ofLimit_clamped] at grown
      obtain ⟨bound, grown⟩ := occurs.grown grown
      refine ⟨bound, ?_⟩
      cases grown with
      | missing read member absent =>
          exact ⟨fun _ => .ofGroup read member absent, fun found => absurd trivial found⟩
      | loop stored above =>
          refine ⟨False.elim, fun _ =>
            ⟨_, rfl, stored, iff_of_true rfl above, fun _ => ⟨rfl, ?_⟩, ?_⟩⟩
          · simp [CallNode.Truncated]
          · exact fun unlooped => absurd rfl unlooped
      | unfolded stored fresh unlooped lists =>
          have last : tree.depth - level = 0 ↔ level = tree.depth := by omega
          rw [last] at lists
          exact ⟨False.elim, fun _ => ⟨_, rfl, stored, iff_of_false unlooped fresh,
            fun looped => absurd looped unlooped, fun _ => ⟨_, _, lists⟩⟩⟩

def recursiveTree : CallTree where
  direction := .callees
  depth := 1
  root := .known ⟨recursiveDraft "even", 1, 1⟩ [] .whole
    [.known ⟨recursiveDraft "odd", 2, 1⟩ [2] .truncated [],
      .known ⟨recursiveDraft "even", 1, 1⟩ [3] .loop [], .unknown "gone" [4]]
  nodeCount := 4

theorem recursive_tree_annotations :
    recursiveStore.callTree {} 1 "even" .callees 1 = .ok (.found recursiveTree) ∧
      CallNode.IsMissing recursiveStore .callees [1] (.unknown "gone" [4]) ∧
      ∃ entity, CallNode.IsDeclared recursiveStore .callees (1 = 1) (4 < 2000) [1] entity
        (.known ⟨recursiveDraft "odd", 2, 1⟩ [2] .truncated []) := by
  have found : recursiveStore.callTree {} 1 "even" .callees 1 = .ok (.found recursiveTree) := by
    cbv
  have gone : recursiveTree.root.Occurs 1 [1] (.unknown "gone" [4]) := .child .root (by simp)
  have odd : recursiveTree.root.Occurs 1 [1]
      (.known ⟨recursiveDraft "odd", 2, 1⟩ [2] .truncated []) := .child .root (by simp)
  exact ⟨found, (call_tree_annotations_exact found gone).2.1 trivial,
    (call_tree_annotations_exact found odd).2.2 id⟩

def recursiveCallees : CallTree where
  direction := .callees
  depth := 4
  root := .known ⟨recursiveDraft "even", 1, 1⟩ [] .whole
    [.known ⟨recursiveDraft "odd", 2, 1⟩ [2] .whole
        [.known ⟨recursiveDraft "even", 1, 1⟩ [5] .loop []],
      .known ⟨recursiveDraft "even", 1, 1⟩ [3] .loop [], .unknown "gone" [4]]
  nodeCount := 5

end Store

end DeclGraph
