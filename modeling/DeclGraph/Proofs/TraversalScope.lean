import Mathlib
import DeclGraph.Proofs.GraphLabels
import DeclGraph.Proofs.GrownTrees

/-! What a traversal of calls depends on. It asks a store for declarations and for their neighbours, and
it goes from a declaration to its neighbours only. So stores that agree on a set of numbers which no call
leaves give the same trees and graphs for a root in that set. -/
namespace DeclGraph

section Attempts
variable {α β : Type} {P : α → Prop} {Q : β → Prop} {left right : Except Error α}

/-- Two attempts fail alike, or both give one value, which has a property. -/
def Matches (P : α → Prop) (left right : Except Error α) : Prop :=
  left = right ∧ ∀ value, left = .ok value → P value

theorem Matches.bind_eq {next next' : α → Except Error β} (first : Matches P left right)
    (rest : ∀ value, P value → next value = next' value) : left >>= next = right >>= next' := by
  obtain ⟨rfl, holds⟩ := first
  cases left with
  | error failure => rfl
  | ok value => exact rest value (holds value rfl)

theorem Matches.bind {next next' : α → Except Error β} (first : Matches P left right)
    (rest : ∀ value, P value → Matches Q (next value) (next' value)) :
    Matches Q (left >>= next) (right >>= next') := by
  refine ⟨first.bind_eq fun value holds => (rest value holds).1, fun result success => ?_⟩
  obtain ⟨value, read, success⟩ := bind_eq_ok.1 success
  exact (rest value (first.2 value read)).2 result success

/-- Steps that match on every state with a property do so one after the other. -/
theorem Matches.foldlM {step step' : α → β → Except Error α} {items : List β}
    (each : ∀ item ∈ items, ∀ state, P state → Matches P (step state item) (step' state item))
    {state : α} (start : P state) : Matches P (items.foldlM step state) (items.foldlM step' state) := by
  induction items generalizing state with
  | nil =>
      refine ⟨rfl, fun value success => ?_⟩
      cases success
      exact start
  | cons item rest ih =>
      rw [List.foldlM_cons, List.foldlM_cons]
      apply (each item List.mem_cons_self state start).bind
      intro next holds
      exact ih (fun later member => each later (List.mem_cons_of_mem item member)) holds

end Attempts

variable {scope : Int → Prop} {left right : Store} {direction : Direction} {id other : Int}

namespace Store

structure Agree (scope : Int → Prop) (left right : Store) : Prop where
  entity : ∀ id, scope id → left.entity? id = right.entity? id
  neighbors : ∀ direction id, scope id → Matches
    (fun neighbors => ∀ neighbor ∈ neighbors, ∀ other, neighbor.entityId = some other → scope other)
    (left.neighbors direction id) (right.neighbors direction id)

theorem Agree.groups (agree : Agree scope left right) (inside : scope id) : Matches
    (fun groups => ∀ group ∈ groups, ∀ other, group.entityId = some other → scope other)
    (left.groups direction id) (right.groups direction id) := by
  apply (agree.neighbors direction id inside).bind
  refine fun neighbors closed => ⟨rfl, fun groups success => ?_⟩
  cases success
  intro group member other known
  obtain ⟨neighbor, listed, same⟩ :=
    (NeighborGroup.collect_known neighbors other).1 ⟨group, member, known⟩
  exact closed neighbor listed other same

end Store

namespace CallTree

variable {growLeft growRight : Int → Budget → Except Error Growth} {trail : Trail}

theorem branch_congr (agree : Store.Agree scope left right)
    (same : ∀ id, scope id → growLeft id = growRight id) {group : NeighborGroup}
    (inside : ∀ id, group.entityId = some id → scope id) (budget : Budget) :
    branch left growLeft trail group budget = branch right growRight trail group budget := by
  unfold branch
  cases known : group.entityId with
  | none => rfl
  | some id =>
      dsimp only
      rw [agree.entity id (inside id known), same id (inside id known)]

theorem branches_congr (agree : Store.Agree scope left right)
    (same : ∀ id, scope id → growLeft id = growRight id) {groups : List NeighborGroup}
    (inside : ∀ group ∈ groups, ∀ id, group.entityId = some id → scope id) (budget : Budget) :
    branches left growLeft trail groups budget = branches right growRight trail groups budget := by
  induction groups generalizing budget with
  | nil => rfl
  | cons group rest ih =>
      rw [branches, branches]
      cases budget.take? with
      | none => rfl
      | some budget =>
          dsimp only
          rw [branch_congr agree same (inside group List.mem_cons_self)]
          simp only [ih fun group' member => inside group' (List.mem_cons_of_mem group member)]

theorem grow_congr (agree : Store.Agree scope left right) (levels : Nat) (trail : Trail)
    (inside : scope id) (budget : Budget) :
    grow left direction levels trail id budget = grow right direction levels trail id budget := by
  induction levels generalizing trail id budget with
  | zero => rw [grow, grow, (agree.neighbors direction id inside).1]
  | succ levels ih =>
      rw [grow, grow]
      -- The neighbours lie in the scope again, so each of them unfolds alike.
      apply (agree.groups inside).bind_eq
      intro groups closed
      apply branches_congr agree _ closed
      intro child below
      funext budget
      exact ih (id :: trail) below budget

end CallTree

namespace CallGraph.Sketch

variable {visit : Visit} {distance : Nat} {sketch : Sketch} {group : NeighborGroup}

def Within (scope : Int → Prop) (sketch : Sketch) : Prop :=
  ∀ visit ∈ sketch.frontier, scope visit.id

theorem connect_within (within : sketch.Within scope) (inside : scope other)
    (lines : List UInt32) : (sketch.connect visit distance other lines).Within scope := by
  intro next listed
  simp only [connect] at listed
  split at listed
  · rcases List.mem_append.1 listed with old | new
    · exact within next old
    · rw [List.mem_singleton.1 new]
      exact inside
  · exact within next listed

theorem follow_matches (agree : Store.Agree scope left right)
    (inside : ∀ id, group.entityId = some id → scope id) (within : sketch.Within scope) :
    Matches (Within scope) (sketch.follow left visit distance group)
      (sketch.follow right visit distance group) := by
  constructor
  · unfold follow
    cases known : group.entityId with
    | none => rfl
    | some other =>
        dsimp only
        rw [agree.entity other (inside other known)]
  · intro next success
    cases follow_cases success with
    | stopped full => exact within
    | passed started missing => exact within
    | refused => exact within
    | met started known present => exact connect_within within (inside _ known) _
    | grown started known absent stored taken =>
        apply connect_within _ (inside _ known)
        exact within

theorem expand_matches (agree : Store.Agree scope left right) (inside : scope visit.id)
    (within : sketch.Within scope) :
    Matches (Within scope) (sketch.expand left distance visit)
      (sketch.expand right distance visit) := by
  unfold expand
  split
  · refine ⟨rfl, fun next success => ?_⟩
    cases success
    exact within
  · apply (agree.groups inside).bind
    intro groups closed
    apply Matches.foldlM _ within
    intro group member state holds
    exact follow_matches agree (closed group member) holds

theorem levels_congr (agree : Store.Agree scope left right) (remaining distance : Nat)
    (within : sketch.Within scope) :
    sketch.levels left remaining distance = sketch.levels right remaining distance := by
  induction remaining generalizing distance sketch with
  | zero => rfl
  | succ remaining ih =>
      rw [levels, levels]
      have nothing : Within scope { sketch with frontier := [] } := by simp [Within]
      have level : Matches (Within scope)
          (sketch.frontier.foldlM (expand left distance) { sketch with frontier := [] })
          (sketch.frontier.foldlM (expand right distance) { sketch with frontier := [] }) := by
        apply Matches.foldlM _ nothing
        intro visit listed state holds
        exact expand_matches agree (within visit listed) holds
      -- The new frontier lies in the scope, from where the next level starts.
      apply level.bind_eq
      intro next holds
      exact ih (distance + 1) holds

end CallGraph.Sketch

namespace Store

variable {projectId : Int} {symbol : String}

theorem Agree.callTree (agree : Agree scope left right)
    (root : Matches (fun found => ∀ entity, found = some entity → scope entity.id)
      (left.root? projectId symbol) (right.root? projectId symbol))
    (limits : Limits) (direction : Direction) (depth : UInt32) :
    left.callTree limits projectId symbol direction depth =
      right.callTree limits projectId symbol direction depth := by
  apply root.bind_eq
  intro found inside
  cases found with
  | none => rfl
  | some entity =>
      dsimp only
      have positive := limits.clamped.treeDepth_pos depth
      rw [CallTree.build_eq_grow _ _ positive, CallTree.build_eq_grow _ _ positive,
        CallTree.grow_congr agree _ _ (inside entity rfl)]

theorem Agree.around (agree : Agree scope left right)
    (root : Matches (fun found => ∀ entity, found = some entity → scope entity.id)
      (left.root? projectId symbol) (right.root? projectId symbol))
    (limits : Limits) (directions : List Direction) (maxDepth : Nat) :
    CallGraph.around left limits projectId symbol directions maxDepth =
      CallGraph.around right limits projectId symbol directions maxDepth := by
  apply root.bind_eq
  intro found inside
  cases found with
  | none => rfl
  | some entity =>
      have start : ∀ budget, (CallGraph.Sketch.ofRoot directions budget entity).Within scope := by
        intro budget visit listed
        obtain ⟨direction, -, rfl⟩ := List.mem_map.1 listed
        exact inside entity rfl
      dsimp only
      rw [CallGraph.build_eq_levels, CallGraph.build_eq_levels,
        CallGraph.Sketch.levels_congr agree _ _ (start _)]

end Store

end DeclGraph
