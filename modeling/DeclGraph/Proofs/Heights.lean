import Mathlib
import DeclGraph.Hierarchy.Heights

/-! Heights are the lengths of longest ways up. A node is settled once and after all its parents, so
heights fall along every way up; and a node that is left over has a parent that is left over too, so
from there a cycle can be reached. -/
namespace DeclGraph.Hierarchy

structure IsWay (Up : Int → Int → Prop) (way : List Int) : Prop where
  distinct : way.Nodup
  linked : way.IsChain Up

def ReachesCycle (Up : Int → Int → Prop) (node : Int) : Prop :=
  ∃ knot, Relation.ReflTransGen Up node knot ∧ Relation.TransGen Up knot knot

/-- Heights that fall by at least one along every step up and by exactly one along some, of nodes all
of whose parents have one. -/
structure Ranked (Up : Int → Int → Prop) (nodes : List Int) (height : Int → Option Nat) : Prop where
  positive : ∀ {node h}, height node = some h → 0 < h
  falls : ∀ {node parent h}, height node = some h → Up node parent → ∃ k < h, height parent = some k
  attained : ∀ {node h}, height node = some (h + 1) →
    h = 0 ∨ ∃ parent, Up node parent ∧ height parent = some h
  leftOver : ∀ {node}, node ∈ nodes → height node = none →
    ∃ parent ∈ nodes, Up node parent ∧ height parent = none

namespace Ranked
variable {Up : Int → Int → Prop} {nodes : List Int} {height : Int → Option Nat}
  {node other : Int} {h : Nat}

theorem falls_along (ranked : Ranked Up nodes height) (settled : height node = some h)
    (way : Relation.TransGen Up node other) : ∃ k < h, height other = some k := by
  induction way with
  | single step => exact ranked.falls settled step
  | tail _ step ih =>
      obtain ⟨k, lower, settled⟩ := ih
      obtain ⟨k', lower', settled'⟩ := ranked.falls settled step
      exact ⟨k', by omega, settled'⟩

theorem not_reachesCycle (ranked : Ranked Up nodes height) (settled : height node = some h) :
    ¬ ReachesCycle Up node := by
  rintro ⟨knot, way, cycle⟩
  have knotted : ∃ k, height knot = some k := by
    rcases Relation.reflTransGen_iff_eq_or_transGen.1 way with rfl | way
    · exact ⟨h, settled⟩
    · obtain ⟨k, -, settled⟩ := ranked.falls_along settled way
      exact ⟨k, settled⟩
  obtain ⟨k, settled⟩ := knotted
  obtain ⟨k', lower, settled'⟩ := ranked.falls_along settled cycle
  rw [settled] at settled'
  cases settled'
  exact Nat.lt_irrefl k lower

/-- Going up from left over to left over never ends, and there are only so many nodes. -/
theorem reachesCycle (ranked : Ranked Up nodes height) (member : node ∈ nodes)
    (leftOver : height node = none) : ReachesCycle Up node := by
  let Open := { node : { node // node ∈ nodes } // height node = none }
  have up : ∀ node : Open, ∃ parent : Open, Up node.1 parent.1 := by
    rintro ⟨⟨node, member⟩, leftOver⟩
    obtain ⟨parent, member', step, leftOver'⟩ := ranked.leftOver member leftOver
    exact ⟨⟨⟨parent, member'⟩, leftOver'⟩, step⟩
  choose next step using up
  let climb (n : Nat) : Open := next^[n] ⟨⟨node, member⟩, leftOver⟩
  have climbs : ∀ n, Up (climb n).1 (climb (n + 1)).1 := by
    intro n
    simp only [climb, Function.iterate_succ_apply']
    exact step _
  have between : ∀ {i j}, i < j → Relation.TransGen Up (climb i).1 (climb j).1 := by
    intro i j less
    have steps := transGen_of_succ_of_lt (fun a b => Up (climb a).1 (climb b).1)
      (fun n _ => climbs n) less
    exact steps.lift (fun n => (climb n).1.1) fun _ _ step => step
  have reach : ∀ n, Relation.ReflTransGen Up node (climb n).1 := by
    intro n
    rcases Nat.eq_zero_or_pos n with rfl | positive
    · exact .refl
    · exact (between positive).to_reflTransGen
  -- The climb never ends among finitely many nodes, so it comes to one of them twice.
  obtain ⟨i, j, different, same⟩ := Finite.exists_ne_map_eq_of_infinite climb
  rcases Nat.lt_or_gt_of_ne different with less | less
  · have cycle := between less
    rw [← same] at cycle
    exact ⟨(climb i).1, reach i, cycle⟩
  · have cycle := between less
    rw [same] at cycle
    exact ⟨(climb j).1, reach j, cycle⟩

/-- The nodes without a height are those from which a cycle can be reached. -/
theorem eq_none_iff (ranked : Ranked Up nodes height) (member : node ∈ nodes) :
    height node = none ↔ ReachesCycle Up node := by
  refine ⟨ranked.reachesCycle member, fun reaches => ?_⟩
  by_contra settled
  obtain ⟨h, settled⟩ := Option.ne_none_iff_exists'.1 settled
  exact ranked.not_reachesCycle settled reaches

theorem length_le (ranked : Ranked Up nodes height) {rest : List Int}
    (settled : height node = some h) (linked : (node :: rest).IsChain Up) :
    (node :: rest).length ≤ h := by
  induction rest generalizing node h with
  | nil => exact ranked.positive settled
  | cons parent rest ih =>
      rw [List.isChain_cons_cons] at linked
      obtain ⟨k, lower, settled'⟩ := ranked.falls settled linked.1
      have := ih settled' linked.2
      simp only [List.length_cons] at this ⊢
      omega

theorem exists_way (ranked : Ranked Up nodes height) (settled : height node = some h) :
    ∃ rest, IsWay Up (node :: rest) ∧ (node :: rest).length = h ∧
      ∀ other ∈ node :: rest, ∃ k ≤ h, height other = some k := by
  induction h generalizing node with
  | zero => exact absurd (ranked.positive settled) (Nat.lt_irrefl 0)
  | succ h ih =>
      rcases ranked.attained settled with rfl | ⟨parent, step, settled'⟩
      · refine ⟨[], ⟨List.nodup_singleton node, List.isChain_singleton node⟩, rfl, ?_⟩
        intro other member
        rw [List.mem_singleton.1 member]
        exact ⟨1, Nat.le_refl 1, settled⟩
      · obtain ⟨rest, way, length, lower⟩ := ih settled'
        refine ⟨parent :: rest, ⟨List.nodup_cons.2 ⟨?_, way.distinct⟩,
          List.isChain_cons_cons.2 ⟨step, way.linked⟩⟩, by rw [List.length_cons, length], ?_⟩
        · intro member
          obtain ⟨k, bound, settled''⟩ := lower node member
          rw [settled] at settled''
          cases settled''
          omega
        · intro other member
          rcases List.mem_cons.1 member with rfl | above
          · exact ⟨h + 1, Nat.le_refl _, settled⟩
          · obtain ⟨k, bound, settled''⟩ := lower other above
            exact ⟨k, by omega, settled''⟩

end Ranked

namespace Lineage

def Up (lineage : Lineage) (child parent : Int) : Prop :=
  parent ∈ lineage.parents child

structure WellFormed (lineage : Lineage) : Prop where
  nodes_distinct : lineage.nodes.Nodup
  parents_distinct : ∀ node, (lineage.parents node).Nodup
  children_distinct : ∀ node, (lineage.children node).Nodup
  turned : ∀ child parent, child ∈ lineage.children parent ↔ lineage.Up child parent
  closed : ∀ child parent, lineage.Up child parent → child ∈ lineage.nodes ∧ parent ∈ lineage.nodes

end Lineage

namespace Settling
variable {lineage : Lineage} {settling : Settling} {height : Std.HashMap Int Nat}
  {node other child : Int}

def unsettled (height : Std.HashMap Int Nat) (nodes : List Int) : Nat :=
  nodes.countP fun node => (height[node]?).isNone

def highest (lineage : Lineage) (height : Std.HashMap Int Nat) (node : Int) : Nat :=
  ((lineage.parents node).filterMap fun parent => height[parent]?).foldl max 0

theorem unsettled_eq_zero_iff {nodes : List Int} :
    unsettled height nodes = 0 ↔ ∀ node ∈ nodes, ∃ h, height[node]? = some h := by
  simp only [unsettled, List.countP_eq_zero, Option.isNone_iff_eq_none, Option.ne_none_iff_exists',
    ← ne_eq]

theorem unsettled_pos {nodes : List Int} (member : node ∈ nodes) (fresh : height[node]? = none) :
    0 < unsettled height nodes :=
  List.countP_pos_iff.2 ⟨node, member, by simp [fresh]⟩

/-- Giving a node its height takes it, and nothing else, out of the count. -/
theorem unsettled_insert {nodes : List Int} (distinct : nodes.Nodup) (fresh : height[node]? = none)
    (h : Nat) : unsettled height nodes =
      unsettled (height.insert node h) nodes + if node ∈ nodes then 1 else 0 := by
  induction nodes with
  | nil => rfl
  | cons first rest ih =>
      rw [List.nodup_cons] at distinct
      have ih := ih distinct.2
      simp only [unsettled, List.countP_cons, Std.HashMap.getElem?_insert, List.mem_cons] at ih ⊢
      by_cases here : node = first
      · subst here
        simp only [fresh, distinct.1, if_false] at ih ⊢
        simp [ih]
      · rw [ih]
        by_cases later : node ∈ rest
        · simp only [here, later, beq_iff_eq, if_false, if_true, or_true]
          omega
        · simp [here, later]

theorem max?_highest (lineage : Lineage) (height : Std.HashMap Int Nat) (node : Int) :
    (0 :: (lineage.parents node).filterMap fun parent => height[parent]?).max? =
      some (highest lineage height node) :=
  List.max?_cons'

theorem highest_eq (lineage : Lineage) (height : Std.HashMap Int Nat) (node : Int) :
    highest lineage height node = 0 ∨
      ∃ parent ∈ lineage.parents node, height[parent]? = some (highest lineage height node) := by
  have largest := (List.max?_eq_some_iff.1 (max?_highest lineage height node)).1
  rcases List.mem_cons.1 largest with zero | member
  · exact Or.inl zero
  · exact Or.inr (List.mem_filterMap.1 member)

theorem le_highest {h : Nat} (member : other ∈ lineage.parents node)
    (settled : height[other]? = some h) : h ≤ highest lineage height node := by
  have largest := (List.max?_eq_some_iff.1 (max?_highest lineage height node)).2
  exact largest h (List.mem_cons_of_mem 0 (List.mem_filterMap.2 ⟨other, member, settled⟩))

theorem highest_insert (known : unsettled height (lineage.parents node) = 0)
    (fresh : height[other]? = none) (h : Nat) :
    highest lineage (height.insert other h) node = highest lineage height node := by
  unfold highest
  congr 1
  refine List.filterMap_congr fun parent member => ?_
  rw [Std.HashMap.getElem?_insert]
  obtain ⟨k, settled⟩ := unsettled_eq_zero_iff.1 known parent member
  have apart : other ≠ parent := by
    rintro rfl
    simp [fresh] at settled
  simp [apart]

theorem release_height : (settling.release child).height = settling.height := by
  unfold release
  split <;> rfl

theorem release_pending : (settling.release child).pending[node]? =
    if node = child then (settling.pending[node]?).map (· - 1) else settling.pending[node]? := by
  unfold release
  split
  next missing =>
    split
    next same => simp [same, missing]
    next => rfl
  next count found =>
    rw [Std.HashMap.getElem?_insert]
    by_cases same : node = child
    · subst same
      simp [found]
    · simp [same, Ne.symm same]

theorem release_ready : node ∈ (settling.release child).ready ↔
    node ∈ settling.ready ∨ node = child ∧ ∃ count ≤ 1, settling.pending[node]? = some count := by
  unfold release
  split
  next missing =>
    refine (or_iff_left ?_).symm
    rintro ⟨rfl, count, -, found⟩
    simp [missing] at found
  next count found =>
    split
    next last =>
      rw [List.mem_cons, or_comm]
      refine or_congr_right ⟨?_, And.left⟩
      rintro rfl
      exact ⟨rfl, count, by omega, found⟩
    next more =>
      refine (or_iff_left ?_).symm
      rintro ⟨rfl, count', bound, found'⟩
      rw [found] at found'
      cases found'
      omega

section Children
variable {children : List Int}

theorem foldl_release_height :
    (children.foldl release settling).height = settling.height := by
  induction children generalizing settling with
  | nil => rfl
  | cons child rest ih => rw [List.foldl_cons, ih, release_height]

theorem foldl_release_pending (distinct : children.Nodup) :
    (children.foldl release settling).pending[node]? =
      if node ∈ children then (settling.pending[node]?).map (· - 1) else settling.pending[node]? := by
  induction children generalizing settling with
  | nil => simp
  | cons child rest ih =>
      rw [List.nodup_cons] at distinct
      rw [List.foldl_cons, ih distinct.2, release_pending]
      by_cases here : node = child
      · subst here
        simp [distinct.1]
      · simp [here]

theorem foldl_release_ready (distinct : children.Nodup) :
    node ∈ (children.foldl release settling).ready ↔
      node ∈ settling.ready ∨
        node ∈ children ∧ ∃ count ≤ 1, settling.pending[node]? = some count := by
  induction children generalizing settling with
  | nil => simp
  | cons child rest ih =>
      rw [List.nodup_cons] at distinct
      rw [List.foldl_cons, ih distinct.2, release_ready, release_pending, or_assoc, List.mem_cons]
      refine or_congr_right ?_
      by_cases here : node = child
      · subst here
        simp [distinct.1]
      · simp [here]

theorem foldl_release_distinct (distinct : children.Nodup) (ready : settling.ready.Nodup)
    (fresh : ∀ child ∈ children, child ∉ settling.ready) :
    (children.foldl release settling).ready.Nodup := by
  induction children generalizing settling with
  | nil => exact ready
  | cons child rest ih =>
      rw [List.nodup_cons] at distinct
      refine ih distinct.2 ?_ fun other member queued => ?_
      · unfold release
        split
        · exact ready
        · split
          · exact List.nodup_cons.2 ⟨fresh child List.mem_cons_self, ready⟩
          · exact ready
      · rcases release_ready.1 queued with old | ⟨rfl, -⟩
        · exact fresh other (List.mem_cons_of_mem child member) old
        · exact distinct.1 member

end Children

/-- The counts are those of unsettled parents, the ready nodes are those that wait for none, and every
settled node stands one above the highest of its parents. -/
structure Invariant (lineage : Lineage) (settling : Settling) : Prop where
  pending : ∀ node ∈ lineage.nodes,
    settling.pending[node]? = some (unsettled settling.height (lineage.parents node))
  ready_distinct : settling.ready.Nodup
  ready : ∀ node, node ∈ settling.ready ↔ node ∈ lineage.nodes ∧ settling.height[node]? = none ∧
    unsettled settling.height (lineage.parents node) = 0
  settled : ∀ node h, settling.height[node]? = some h → node ∈ lineage.nodes ∧
    unsettled settling.height (lineage.parents node) = 0 ∧
      h = highest lineage settling.height node + 1

theorem start_invariant (wellFormed : lineage.WellFormed) : Invariant lineage (start lineage) where
  pending node member := by
    have distinct : (lineage.nodes.map fun node => (node, (lineage.parents node).length)).Pairwise
        fun a b => (a.1 == b.1) = false :=
      List.pairwise_map.2 (wellFormed.nodes_distinct.imp fun {_ _} apart => by simpa using apart)
    rw [start, Std.HashMap.getElem?_ofList_of_mem BEq.rfl distinct
      (List.mem_map.2 ⟨node, member, rfl⟩)]
    simp [unsettled]
  ready_distinct := wellFormed.nodes_distinct.filter _
  ready node := by simp [start, unsettled]
  settled node h settled := by simp [start] at settled

theorem settle_height : (settle lineage settling node).height =
    settling.height.insert node (highest lineage settling.height node + 1) :=
  foldl_release_height

theorem settle_getElem? : (settle lineage settling node).height[other]? =
    if node = other then some (highest lineage settling.height node + 1)
    else settling.height[other]? := by
  rw [settle_height, Std.HashMap.getElem?_insert]
  simp only [beq_iff_eq]

/-! The step: a node is taken from the ready ones and settled. -/
section Step
variable (wellFormed : lineage.WellFormed)
  (invariant : Invariant lineage { settling with ready := node :: settling.ready })
include invariant

theorem popped : node ∈ lineage.nodes ∧ settling.height[node]? = none ∧
    unsettled settling.height (lineage.parents node) = 0 :=
  (invariant.ready node).1 List.mem_cons_self

include wellFormed

/-- A child waits for one parent less, every other node for as many as before. -/
theorem unsettled_settle (other : Int) : unsettled settling.height (lineage.parents other) =
    unsettled (settle lineage settling node).height (lineage.parents other) +
      if node ∈ lineage.parents other then 1 else 0 := by
  rw [settle_height]
  exact unsettled_insert (wellFormed.parents_distinct other) (popped invariant).2.1 _

theorem child_waits (listed : child ∈ lineage.children node) :
    0 < unsettled settling.height (lineage.parents child) :=
  unsettled_pos ((wellFormed.turned child node).1 listed) (popped invariant).2.1

theorem settle_pending (present : other ∈ lineage.nodes) :
    (settle lineage settling node).pending[other]? =
      some (unsettled (settle lineage settling node).height (lineage.parents other)) := by
  have count := unsettled_settle wellFormed invariant other
  have turned := wellFormed.turned other node
  have before : settling.pending[other]? =
      some (unsettled settling.height (lineage.parents other)) := invariant.pending other present
  simp only [settle, foldl_release_pending (wellFormed.children_distinct node), before]
  by_cases up : node ∈ lineage.parents other
  · rw [if_pos (turned.2 up)]
    simp only [up, if_true, settle] at count
    simp [count]
  · rw [if_neg (mt turned.1 up)]
    simpa [up, settle] using count

theorem settle_ready_distinct : (settle lineage settling node).ready.Nodup := by
  refine foldl_release_distinct (wellFormed.children_distinct node)
    (List.nodup_cons.1 invariant.ready_distinct).2 fun child listed queued => ?_
  have waiting := child_waits wellFormed invariant listed
  have idle := ((invariant.ready child).1 (List.mem_cons_of_mem node queued)).2.2
  simp only at idle
  omega

/-- A child that waits for the node alone has no height, and is not the node. -/
theorem child_open (listed : child ∈ lineage.children node) :
    settling.height[child]? = none ∧ node ≠ child := by
  have waiting := child_waits wellFormed invariant listed
  constructor
  · by_contra known
    obtain ⟨h, known⟩ := Option.ne_none_iff_exists'.1 known
    have idle := (invariant.settled child h known).2.1
    simp only at idle
    omega
  · rintro rfl
    have idle := (popped invariant).2.2
    omega

theorem settle_ready : other ∈ (settle lineage settling node).ready ↔ other ∈ lineage.nodes ∧
    (settle lineage settling node).height[other]? = none ∧
      unsettled (settle lineage settling node).height (lineage.parents other) = 0 := by
  have released : other ∈ (settle lineage settling node).ready ↔ other ∈ settling.ready ∨
      other ∈ lineage.children node ∧ ∃ count ≤ 1, settling.pending[other]? = some count :=
    foldl_release_ready (wellFormed.children_distinct node)
  have count := unsettled_settle wellFormed invariant other
  have pending : other ∈ lineage.nodes → settling.pending[other]? =
      some (unsettled settling.height (lineage.parents other)) := invariant.pending other
  rw [released, settle_getElem?]
  -- A node is ready now if it was before and is not the settled one, or is a child whose last
  -- unsettled parent was the settled one.
  constructor
  · rintro (queued | ⟨listed, waiting, bound, found⟩)
    · obtain ⟨present, unknown, idle⟩ := (invariant.ready other).1 (List.mem_cons_of_mem node queued)
      have apart : node ≠ other := fun same =>
        (List.nodup_cons.1 invariant.ready_distinct).1 (same ▸ queued)
      simp only at idle
      exact ⟨present, by simpa [apart] using unknown, by omega⟩
    · have up : node ∈ lineage.parents other := (wellFormed.turned other node).1 listed
      have present := (wellFormed.closed other node up).1
      obtain ⟨unknown, apart⟩ := child_open wellFormed invariant listed
      rw [pending present, Option.some.injEq] at found
      simp only [up, if_true] at count
      exact ⟨present, by simpa [apart] using unknown, by omega⟩
  · rintro ⟨present, unknown, idle⟩
    have apart : node ≠ other := by
      rintro rfl
      simp at unknown
    have unknown : settling.height[other]? = none := by simpa [apart] using unknown
    by_cases up : node ∈ lineage.parents other
    · simp only [up, if_true] at count
      refine Or.inr ⟨(wellFormed.turned other node).2 up, 1, Nat.le_refl 1, ?_⟩
      rw [pending present, count, idle]
    · simp only [up, if_false] at count
      have queued := (invariant.ready other).2 ⟨present, unknown, by simp only; omega⟩
      exact Or.inl ((List.mem_cons.1 queued).resolve_left (Ne.symm apart))

theorem settle_settled {h : Nat} (known : (settle lineage settling node).height[other]? = some h) :
    other ∈ lineage.nodes ∧
      unsettled (settle lineage settling node).height (lineage.parents other) = 0 ∧
        h = highest lineage (settle lineage settling node).height other + 1 := by
  obtain ⟨member, fresh, waits⟩ := popped invariant
  have count := unsettled_settle wellFormed invariant other
  rw [settle_getElem?] at known
  rw [settle_height] at count ⊢
  by_cases same : node = other
  · subst same
    rw [if_pos rfl, Option.some.injEq] at known
    exact ⟨member, by omega, by rw [highest_insert waits fresh, known]⟩
  · rw [if_neg same] at known
    obtain ⟨present, idle, stands⟩ := invariant.settled other h known
    simp only at idle stands
    exact ⟨present, by omega, by rw [highest_insert idle fresh, stands]⟩

theorem settle_invariant : Invariant lineage (settle lineage settling node) where
  pending _ present := settle_pending wellFormed invariant present
  ready_distinct := settle_ready_distinct wellFormed invariant
  ready _ := settle_ready wellFormed invariant
  settled _ _ known := settle_settled wellFormed invariant known

theorem unsettled_nodes_settle : unsettled settling.height lineage.nodes =
    unsettled (settle lineage settling node).height lineage.nodes + 1 := by
  obtain ⟨member, fresh, -⟩ := popped invariant
  rw [settle_height, unsettled_insert wellFormed.nodes_distinct fresh, if_pos member]

end Step

theorem idle_or_pops (settling : Settling) : settling.ready = [] ∨
    ∃ (node : Int) (rest : Settling), settling = { rest with ready := node :: rest.ready } := by
  cases ready : settling.ready with
  | nil => exact Or.inl rfl
  | cons node others =>
      refine Or.inr ⟨node, { settling with ready := others }, ?_⟩
      rw [← ready]

theorem run_idle (fuel : Nat) (idle : settling.ready = []) : run lineage fuel settling = settling := by
  cases fuel with
  | zero => rfl
  | succ fuel => rw [run, idle]

theorem run_pops (fuel : Nat) (settling : Settling) (node : Int) :
    run lineage (fuel + 1) { settling with ready := node :: settling.ready } =
      run lineage fuel (settle lineage settling node) :=
  rfl

/-- With fuel for every unsettled node, settling goes on until no node is ready. -/
theorem run_settles (wellFormed : lineage.WellFormed) (fuel : Nat)
    (invariant : Invariant lineage settling)
    (enough : unsettled settling.height lineage.nodes ≤ fuel) :
    Invariant lineage (run lineage fuel settling) ∧ (run lineage fuel settling).ready = [] := by
  -- Each step settles one node, so the count of unsettled ones falls with the fuel.
  induction fuel generalizing settling with
  | zero =>
      refine ⟨invariant, List.eq_nil_iff_forall_not_mem.2 fun node queued => ?_⟩
      obtain ⟨member, fresh, -⟩ := (invariant.ready node).1 queued
      have := unsettled_pos member fresh
      omega
  | succ fuel ih =>
      rcases idle_or_pops settling with idle | ⟨node, rest, rfl⟩
      · rw [run_idle (fuel + 1) idle]
        exact ⟨invariant, idle⟩
      · have fewer := unsettled_nodes_settle wellFormed invariant
        simp only at enough
        rw [run_pops]
        exact ih (settle_invariant wellFormed invariant) (by omega)

/-- When no node is ready, the heights fall along every way up, and a node without one has a parent
without one. -/
theorem Invariant.ranked (wellFormed : lineage.WellFormed) (invariant : Invariant lineage settling)
    (idle : settling.ready = []) :
    Ranked lineage.Up lineage.nodes (settling.height[·]?) where
  positive := by
    intro node h settled
    have stands := (invariant.settled node h settled).2.2
    omega
  falls := by
    intro node parent h settled up
    obtain ⟨-, known, stands⟩ := invariant.settled node h settled
    obtain ⟨k, settled'⟩ := unsettled_eq_zero_iff.1 known parent up
    have := le_highest up settled'
    exact ⟨k, by omega, settled'⟩
  attained := by
    intro node h settled
    obtain ⟨-, -, stands⟩ := invariant.settled node (h + 1) settled
    obtain rfl : h = highest lineage _ node := Nat.succ.inj stands
    exact highest_eq lineage _ node
  leftOver := by
    intro node member fresh
    have waits : unsettled settling.height (lineage.parents node) ≠ 0 := by
      intro waits
      have queued := (invariant.ready node).2 ⟨member, fresh, waits⟩
      simp [idle] at queued
    obtain ⟨parent, up, fresh'⟩ := List.countP_pos_iff.1 (Nat.pos_of_ne_zero waits)
    exact ⟨parent, (wellFormed.closed node parent up).2, up, Option.isNone_iff_eq_none.1 fresh'⟩

end Settling

theorem heights_ranked {lineage : Lineage} (wellFormed : lineage.WellFormed) :
    Ranked lineage.Up lineage.nodes ((heights lineage)[·]?) := by
  obtain ⟨invariant, idle⟩ := Settling.run_settles wellFormed lineage.nodes.length
    (Settling.start_invariant wellFormed) List.countP_le_length
  exact invariant.ranked wellFormed idle

end DeclGraph.Hierarchy
