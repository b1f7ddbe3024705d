import Mathlib
import DeclGraph.Proofs.Depth

/-! Heights do not depend on the order in which nodes are settled. The nodes without parents may be
taken in any order: each node is settled at most once, no count of unsettled parents falls below
zero, and in the end the heights are the lengths of the longest climbs. -/
namespace DeclGraph.Hierarchy

/-- How many nodes the climbs from a node have. A climb, unlike a way, may come to a node twice. -/
def climbLengths (Up : Int → Int → Prop) (node : Int) : Set Nat :=
  { length | ∃ above, (node :: above).IsChain Up ∧ (node :: above).length = length }

theorem Ranked.isGreatest {Up : Int → Int → Prop} {nodes : List Int} {height : Int → Option Nat}
    {node : Int} {h : Nat} (ranked : Ranked Up nodes height) (settled : height node = some h) :
    IsGreatest (climbLengths Up node) h := by
  constructor
  · obtain ⟨above, way, length, -⟩ := ranked.exists_way settled
    exact ⟨above, way.linked, length⟩
  · rintro _ ⟨above, linked, rfl⟩
    exact ranked.length_le settled linked

/-- Heights of the nodes from which no cycle can be reached and of nothing else, each the number of
nodes on a longest climb. -/
structure ExactHeights (lineage : Lineage) (height : Std.HashMap Int Nat) : Prop where
  domain : ∀ node, node ∈ height ↔ node ∈ lineage.nodes ∧ ¬ ReachesCycle lineage.Up node
  longest : ∀ {node h}, height[node]? = some h → IsGreatest (climbLengths lineage.Up node) h

theorem ExactHeights.unique {lineage : Lineage} {height other : Std.HashMap Int Nat}
    (exact_height : ExactHeights lineage height) (exact_other : ExactHeights lineage other)
    (node : Int) : height[node]? = other[node]? := by
  have known : node ∈ height ↔ node ∈ other :=
    (exact_height.domain node).trans (exact_other.domain node).symm
  by_cases settled : node ∈ height
  · have here := Std.HashMap.getElem?_eq_some_getElem settled
    have there := Std.HashMap.getElem?_eq_some_getElem (known.1 settled)
    have same := (exact_height.longest here).unique (exact_other.longest there)
    rw [here, there, same]
  · rw [Std.HashMap.getElem?_eq_none settled, Std.HashMap.getElem?_eq_none (mt known.2 settled)]

namespace Lineage
variable {lineage : Lineage}

def Transposed (lineage : Lineage) : Prop :=
  ∀ child parent, (lineage.children parent).count child = (lineage.parents child).count parent

def Closed (lineage : Lineage) : Prop :=
  ∀ child parent, lineage.Up child parent → child ∈ lineage.nodes ∧ parent ∈ lineage.nodes

theorem wellFormed_iff : lineage.WellFormed ↔ lineage.nodes.Nodup ∧
    (∀ node, (lineage.parents node).Nodup) ∧ lineage.Transposed ∧ lineage.Closed := by
  constructor
  · intro wellFormed
    refine ⟨wellFormed.nodes_distinct, wellFormed.parents_distinct, fun child parent => ?_,
      wellFormed.closed⟩
    have turned : child ∈ lineage.children parent ↔ parent ∈ lineage.parents child :=
      wellFormed.turned child parent
    rw [(wellFormed.children_distinct parent).count, (wellFormed.parents_distinct child).count]
    simp only [turned]
  · rintro ⟨nodes_distinct, parents_distinct, transposed, closed⟩
    refine ⟨nodes_distinct, parents_distinct, fun parent => ?_, fun child parent => ?_, closed⟩
    · refine List.nodup_iff_count_le_one.2 fun child => ?_
      rw [transposed child parent]
      exact List.nodup_iff_count_le_one.1 (parents_distinct child) parent
    · rw [← List.count_pos_iff, transposed child parent, List.count_pos_iff]
      exact Iff.rfl

end Lineage

namespace Settling
variable {lineage : Lineage} {settling last : Settling} {node : Int} {order ready : List Int}

theorem Invariant.exactHeights (wellFormed : lineage.WellFormed)
    (invariant : Invariant lineage settling) (idle : settling.ready = []) :
    ExactHeights lineage settling.height := by
  have ranked := invariant.ranked wellFormed idle
  refine ⟨fun node => ?_, ranked.isGreatest⟩
  rw [Std.HashMap.mem_iff_isSome_getElem?]
  constructor
  · intro known
    obtain ⟨h, settled⟩ := Option.isSome_iff_exists.1 known
    exact ⟨(invariant.settled node h settled).1, ranked.not_reachesCycle settled⟩
  · rintro ⟨member, acyclic⟩
    exact Option.isSome_iff_ne_none.2 (mt (ranked.eq_none_iff member).1 acyclic)

def release? (settling : Settling) (child : Int) : Option Settling :=
  if settling.pending[child]? = some 0 then none else some (settling.release child)

def settle? (lineage : Lineage) (settling : Settling) (node : Int) : Option Settling :=
  (lineage.children node).foldlM release?
    { settling with height := settling.height.insert node (highest lineage settling.height node + 1) }

/-- A list of children names each of them once, so each loses one of the parents it waits for. -/
theorem foldlM_release? {children : List Int} (distinct : children.Nodup)
    (waiting : ∀ child ∈ children, settling.pending[child]? ≠ some 0) :
    children.foldlM release? settling = some (children.foldl release settling) := by
  induction children generalizing settling with
  | nil => rfl
  | cons child rest ih =>
      rw [List.nodup_cons] at distinct
      rw [List.foldlM_cons, release?, if_neg (waiting child List.mem_cons_self), List.foldl_cons]
      refine ih distinct.2 fun other member => ?_
      have apart : other ≠ child := by
        rintro rfl
        exact distinct.1 member
      rw [release_pending, if_neg apart]
      exact waiting other (List.mem_cons_of_mem child member)

theorem settle?_eq_some (wellFormed : lineage.WellFormed)
    (invariant : Invariant lineage { settling with ready := node :: settling.ready }) :
    settle? lineage settling node = some (settle lineage settling node) := by
  refine foldlM_release? (wellFormed.children_distinct node) fun child listed => ?_
  have waits := child_waits wellFormed invariant listed
  have present := (wellFormed.closed child node ((wellFormed.turned child node).1 listed)).1
  have counted : settling.pending[child]? =
      some (unsettled settling.height (lineage.parents child)) := invariant.pending child present
  simp only [counted, ne_eq, Option.some.injEq]
  omega

/-- A whole run: ready nodes are settled one after the other, in the order of the list, until there
is none, and no count falls below zero. -/
inductive Runs (lineage : Lineage) : Settling → List Int → Settling → Prop where
  | done {settling : Settling} (idle : settling.ready = []) : Runs lineage settling [] settling
  | next {settling after last : Settling} {order : List Int} (node : Int)
      (settled : settle? lineage settling node = some after)
      (later : Runs lineage after order last) :
      Runs lineage { settling with ready := node :: settling.ready } (node :: order) last

/-- With fuel for every unsettled node, what is run is a whole run. -/
theorem run_runs (wellFormed : lineage.WellFormed) (fuel : Nat)
    (invariant : Invariant lineage settling)
    (enough : unsettled settling.height lineage.nodes ≤ fuel) :
    ∃ order, Runs lineage settling order (run lineage fuel settling) := by
  induction fuel generalizing settling with
  | zero => exact ⟨[], .done (run_settles wellFormed 0 invariant enough).2⟩
  | succ fuel ih =>
      rcases idle_or_pops settling with idle | ⟨node, rest, rfl⟩
      · rw [run_idle (fuel + 1) idle]
        exact ⟨[], .done idle⟩
      · have fewer := unsettled_nodes_settle wellFormed invariant
        simp only at enough
        obtain ⟨order, later⟩ := ih (settle_invariant wellFormed invariant) (by omega)
        rw [run_pops]
        exact ⟨node :: order, .next node (settle?_eq_some wellFormed invariant) later⟩

structure Heightens (settling : Settling) (order : List Int) (last : Settling) : Prop where
  distinct : order.Nodup
  fresh : ∀ node ∈ order, node ∉ settling.height
  settled : ∀ node, node ∈ last.height ↔ node ∈ settling.height ∨ node ∈ order

theorem mem_settle_height {other : Int} : other ∈ (settle lineage settling node).height ↔
    other = node ∨ other ∈ settling.height := by
  rw [settle_height, Std.HashMap.mem_insert, beq_iff_eq, eq_comm]

theorem Runs.heightens (wellFormed : lineage.WellFormed) (runs : Runs lineage settling order last)
    (invariant : Invariant lineage settling) : Heightens settling order last := by
  induction runs with
  | done => exact ⟨List.nodup_nil, by simp, by simp⟩
  | @next settling after last order node settled later ih =>
      rw [settle?_eq_some wellFormed invariant, Option.some.injEq] at settled
      subst settled
      obtain ⟨distinct, fresh, covered⟩ := ih (settle_invariant wellFormed invariant)
      have unknown : node ∉ settling.height := by
        rw [Std.HashMap.mem_iff_isSome_getElem?, (popped invariant).2.1]
        simp
      -- A node that comes later has no height after this step, so it is not the one settled here.
      refine ⟨List.nodup_cons.2 ⟨fun again => ?_, distinct⟩, fun other member => ?_, fun other => ?_⟩
      · exact fresh node again (mem_settle_height.2 (Or.inl rfl))
      · rcases List.mem_cons.1 member with rfl | member
        · exact unknown
        · exact fun early => fresh other member (mem_settle_height.2 (Or.inr early))
      · rw [covered, mem_settle_height, List.mem_cons, or_assoc, or_left_comm]

theorem Invariant.reorder (invariant : Invariant lineage settling)
    (reordered : ready.Perm settling.ready) : Invariant lineage { settling with ready } where
  pending := invariant.pending
  ready_distinct := reordered.nodup_iff.2 invariant.ready_distinct
  ready node := reordered.mem_iff.trans (invariant.ready node)
  settled := invariant.settled

def runFrom (lineage : Lineage) (ready : List Int) : Settling :=
  run lineage lineage.nodes.length { start lineage with ready }

theorem heights_eq_runFrom (lineage : Lineage) :
    heights lineage = (runFrom lineage (start lineage).ready).height :=
  rfl

theorem runFrom_exact (wellFormed : lineage.WellFormed) (seeded : ready.Perm (start lineage).ready) :
    ExactHeights lineage (runFrom lineage ready).height := by
  obtain ⟨invariant, idle⟩ := run_settles wellFormed lineage.nodes.length
    ((start_invariant wellFormed).reorder seeded) List.countP_le_length
  exact invariant.exactHeights wellFormed idle

/-- Whatever order the nodes without parents come in, the run ends, settles each node at most once and
lets no count fall below zero. Its heights are exact, and those of any other order. -/
theorem heights_exact_in_any_order (nodes_distinct : lineage.nodes.Nodup)
    (parents_distinct : ∀ node, (lineage.parents node).Nodup) (transposed : lineage.Transposed)
    (closed : lineage.Closed) (seeded : ready.Perm (start lineage).ready) :
    (∃ order, Runs lineage { start lineage with ready } order (runFrom lineage ready) ∧
      order.Nodup ∧ ∀ node, node ∈ order ↔ node ∈ (runFrom lineage ready).height) ∧
    ExactHeights lineage (runFrom lineage ready).height ∧
      ∀ node : Int, (runFrom lineage ready).height[node]? = (heights lineage)[node]? := by
  have wellFormed := Lineage.wellFormed_iff.2 ⟨nodes_distinct, parents_distinct, transposed, closed⟩
  have invariant := (start_invariant wellFormed).reorder seeded
  have exactHeights := runFrom_exact wellFormed seeded
  have inOrder : ExactHeights lineage (heights lineage) := by
    rw [heights_eq_runFrom]
    exact runFrom_exact wellFormed (List.Perm.refl _)
  refine ⟨?_, exactHeights, exactHeights.unique inOrder⟩
  obtain ⟨order, runs⟩ := run_runs wellFormed lineage.nodes.length invariant List.countP_le_length
  have heightens := runs.heightens wellFormed invariant
  refine ⟨order, runs, heightens.distinct, fun node => ?_⟩
  rw [runFrom, heightens.settled]
  simp [start]

def tangledLineage : Lineage :=
  (Links.ofEdges [1, 2, 3, 4, 5, 6]
    [⟨1, 1, some 2, "B", .extension⟩, ⟨2, 2, some 1, "A", .extension⟩,
      ⟨3, 2, some 3, "C", .extension⟩, ⟨4, 3, some 4, "D", .extension⟩,
      ⟨5, 5, some 5, "E", .extension⟩, ⟨6, 5, some 4, "D", .extension⟩]).lineage

theorem tangled_heights_exact : [6, 4].Perm (start tangledLineage).ready ∧
    (∃ order, Runs tangledLineage { start tangledLineage with ready := [6, 4] } order
      (runFrom tangledLineage [6, 4]) ∧ order.Nodup) ∧
    ExactHeights tangledLineage (runFrom tangledLineage [6, 4]).height := by
  have seeded : [6, 4].Perm (start tangledLineage).ready := by
    have ready : (start tangledLineage).ready = [4, 6] := by
      simp [start, tangledLineage, Links.ofEdges, Links.addEdge, Links.addNode, Links.lineage,
        Std.HashMap.getD_insert]
    rw [ready]
    decide
  obtain ⟨distinct, parents_distinct, transposed, closed⟩ :=
    Lineage.wellFormed_iff.1 (Links.ofEdges_lineage _ _).1
  obtain ⟨⟨order, runs, once, -⟩, exactHeights, -⟩ :=
    heights_exact_in_any_order distinct parents_distinct transposed closed seeded
  exact ⟨seeded, ⟨order, runs, once⟩, exactHeights⟩

end Settling

end DeclGraph.Hierarchy
