import Mathlib
import DeclGraph.Calls.Tree
import DeclGraph.Proofs.Reading

/-! A walk over a tree enters a declaration before it unfolds it and leaves it afterwards, so it comes
back to each trail that it has left. The trail need not be carried along then: below a node it is the
one that led there. -/
namespace DeclGraph

theorem effectiveDepth_pos (requested ceiling : Nat) : 0 < effectiveDepth requested ceiling := by
  have positive : 0 < clamp 1 hardMaxDepth ceiling := by
    unfold clamp hardMaxDepth
    omega
  unfold effectiveDepth
  split
  next => exact positive
  next asked => exact Nat.lt_min.2 ⟨Nat.pos_of_ne_zero asked, positive⟩

theorem Limits.treeDepth_pos (limits : Limits) (requested : UInt32) :
    0 < limits.treeDepth requested :=
  effectiveDepth_pos _ _

theorem Trail.leave_enter {trail : Trail} {id : Int} (fresh : id ∉ trail) :
    (trail.enter id).2 = id :: trail ∧ (trail.enter id).2.leave = trail := by
  simp [enter, leave, fresh]

namespace CallTree

structure Growth where
  children : List CallNode
  cut : Bool
  budget : Budget

def Growth.ending (growth : Growth) : Ending :=
  if growth.cut then .truncated else .whole

def branch (store : Store) (grow : Int → Budget → Except Error Growth) (trail : Trail)
    (group : NeighborGroup) (budget : Budget) : Except Error (CallNode × Budget) :=
  match group.entityId with
  | none => .ok (.unknown group.symbol group.lines, budget)
  | some id => do
    match ← store.entity? id with
    | none => .ok (.unknown group.symbol group.lines, budget)
    | some entity =>
      if trail.contains id then .ok (.known entity group.lines .loop [], budget)
      else do
        let growth ← grow id budget
        .ok (.known entity group.lines growth.ending growth.children, growth.budget)

def branches (store : Store) (grow : Int → Budget → Except Error Growth) (trail : Trail) :
    List NeighborGroup → Budget → Except Error Growth
  | [], budget => .ok ⟨[], false, budget⟩
  | group :: rest, budget =>
    match budget.take? with
    | none => .ok ⟨[], true, budget⟩
    | some budget => do
      let (node, budget) ← branch store grow trail group budget
      let others ← branches store grow trail rest budget
      .ok { others with children := node :: others.children }

def grow (store : Store) (direction : Direction) : Nat → Trail → Int → Budget → Except Error Growth
  | 0, _, id, budget => do
    .ok ⟨[], !(← store.neighbors direction id).isEmpty, budget⟩
  | levels + 1, trail, id, budget => do
    branches store (fun child => grow store direction levels (id :: trail) child) (id :: trail)
      (← store.groups direction id) budget

variable {store : Store} {direction : Direction} {trail : Trail}
  {descend : Int → Walk → Except Error Unfolding} {unfold : Int → Budget → Except Error Growth}

/-- An unfolding that has come back to a trail, with the nodes of a growth behind others. -/
def Returns (trail : Trail) (earlier : List CallNode) (unfolding : Unfolding) (growth : Growth) : Prop :=
  unfolding = ⟨earlier ++ growth.children, growth.cut, ⟨trail, growth.budget⟩⟩

theorem reach_returns
    (returns : ∀ id budget, id ∉ trail →
      Alike (Returns trail []) (descend id ⟨trail, budget⟩) (unfold id budget))
    (group : NeighborGroup) (budget : Budget) :
    Alike (fun walked grown => walked = (grown.1, ⟨trail, grown.2⟩))
      (Walk.reach store descend group ⟨trail, budget⟩) (branch store unfold trail group budget) := by
  unfold Walk.reach branch
  cases group.entityId with
  | none => rfl
  | some id =>
      refine (Alike.refl (store.entity? id)).bind ?_
      rintro found _ rfl
      cases found with
      | none => rfl
      | some entity =>
          by_cases member : id ∈ trail
          · simp only [List.contains_iff_mem, member, if_true]
            rfl
          · simp only [List.contains_iff_mem, member, if_false]
            refine (returns id budget member).bind ?_
            rintro _ growth rfl
            rfl

theorem reachAll_returns
    (returns : ∀ id budget, id ∉ trail →
      Alike (Returns trail []) (descend id ⟨trail, budget⟩) (unfold id budget))
    (groups : List NeighborGroup) (earlier : List CallNode) (budget : Budget) :
    Alike (Returns trail earlier) (Walk.reachAll store descend groups earlier ⟨trail, budget⟩)
      (branches store unfold trail groups budget) := by
  induction groups generalizing earlier budget with
  | nil => simp [Walk.reachAll, branches, Alike, Returns]
  | cons group rest ih =>
      rw [Walk.reachAll, branches]
      cases budget.take? with
      | none => simp [Alike, Returns]
      | some left =>
          refine (reach_returns returns group left).bind ?_
          rintro _ ⟨node, further⟩ rfl
          dsimp only
          rw [← bind_pure (Walk.reachAll _ _ _ _ _)]
          refine (ih (earlier ++ [node]) further).bind ?_
          rintro _ growth rfl
          simp [Returns, Alike, pure, Except.pure]

/-- A walk that has entered a declaration unfolds it as it grows, and is still inside. -/
theorem expand_returns (store : Store) (direction : Direction) (below : Nat) (trail : Trail) (id : Int)
    (budget : Budget) :
    Alike (Returns (id :: trail) []) (Walk.expand store direction below id ⟨id :: trail, budget⟩)
      (grow store direction (below + 1) trail id budget) := by
  induction below generalizing trail id budget with
  | zero =>
      refine (Alike.refl (store.groups direction id)).bind ?_
      rintro groups _ rfl
      refine reachAll_returns (fun child left _ => ?_) groups [] budget
      refine (Alike.refl (store.neighbors direction child)).bind ?_
      rintro neighbors _ rfl
      rfl
  | succ below ih =>
      refine (Alike.refl (store.groups direction id)).bind ?_
      rintro groups _ rfl
      refine reachAll_returns (fun child left fresh => ?_) groups [] budget
      obtain ⟨entered, left⟩ := Trail.leave_enter fresh
      rw [Walk.enter, ← bind_pure (grow _ _ _ _ _ _), entered]
      refine (ih (id :: trail) child _).bind ?_
      rintro _ growth rfl
      rfl

theorem build_eq_grow (store : Store) (direction : Direction) {depth : Nat} (positive : 0 < depth)
    (budget : Budget) (root : Entity) :
    build store direction depth budget root =
      grow store direction depth [] root.id (budget.take?.getD budget) >>= fun growth =>
        .ok
          { direction
            depth
            root := .known root [] growth.ending growth.children
            nodeCount := growth.budget.used } := by
  obtain ⟨below, rfl⟩ : ∃ below, depth = below + 1 := ⟨depth - 1, by omega⟩
  refine (expand_returns store direction below [] root.id _).bind_eq ?_
  rintro _ growth rfl
  rfl

theorem build_eq_ok_iff {depth : Nat} {budget : Budget} {root : Entity} {tree : CallTree}
    (positive : 0 < depth) :
    build store direction depth budget root = .ok tree ↔
      ∃ growth, grow store direction depth [] root.id (budget.take?.getD budget) = .ok growth ∧
        tree = ⟨direction, depth, .known root [] growth.ending growth.children,
          growth.budget.used⟩ := by
  rw [build_eq_grow store direction positive, bind_eq_ok]
  simp only [Except.ok.injEq, @eq_comm _ tree]

end CallTree

end DeclGraph
