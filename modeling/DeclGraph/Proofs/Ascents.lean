import Mathlib
import DeclGraph.Hierarchy.Depth

/-! The stack of a search for ways up holds the calls of a recursion: each node on the way goes through
its parents, and from a parent that prolongs the way the search goes on in the same manner. -/
namespace DeclGraph.Hierarchy

def tryParent (height : Int → Option Nat) (climb : List Int → Search → Search) (way : List Int)
    (search : Search) (parent : Int) : Search :=
  match height parent with
  | some above => { search with best := max search.best (way.length + above) }
  | none =>
    if search.budget = 0 ∨ way.contains parent then search
    else
      climb (parent :: way)
        { budget := search.budget - 1, best := max search.best (way.length + 1) }

/-- Searches on from a way up, whose last node comes first. A way meets no node twice, so it can be
prolonged at most as often as there are nodes. -/
def climb (parents : Int → List Int) (height : Int → Option Nat) :
    Nat → List Int → Search → Search
  | 0, _, search => search
  | _ + 1, [], search => search
  | room + 1, node :: below, search =>
    (parents node).foldl (tryParent height (climb parents height room) (node :: below)) search

def climbFrom (links : Links) (height : Std.HashMap Int Nat) (search : Search) (start : Int) :
    Search :=
  match height[start]? with
  | some h => { search with best := max search.best h }
  | none =>
    climb links.lineage.parents (height[·]?) links.nodes.length [start]
      { search with best := max search.best 1 }

section Ascents

variable {parents : Int → List Int} {height : Int → Option Nat} {stack : List (Int × Nat)}
  {onWay : Std.HashSet Int} {search : Search} {nodes : List Int}

def unwind (parents : Int → List Int) (height : Int → Option Nat) (count : Nat) :
    List (Int × Nat) → Search → Search
  | [], search => search
  | (node, next) :: below, search =>
    unwind parents height count below (((parents node).drop next).foldl
      (tryParent height (climb parents height (count - (below.length + 1)))
        (node :: below.map Prod.fst)) search)

structure OnWay (nodes : List Int) (stack : List (Int × Nat)) (onWay : Std.HashSet Int) : Prop where
  distinct : (stack.map Prod.fst).Nodup
  inside : ∀ node ∈ stack.map Prod.fst, node ∈ nodes
  marked : ∀ node, node ∈ onWay ↔ node ∈ stack.map Prod.fst

namespace OnWay

variable {node parent : Int} {next : Nat} {below : List (Int × Nat)}

theorem advance (way : OnWay nodes ((node, next) :: below) onWay) :
    OnWay nodes ((node, next + 1) :: below) onWay :=
  ⟨way.distinct, way.inside, way.marked⟩

theorem push (way : OnWay nodes stack onWay) (present : parent ∈ nodes) (fresh : parent ∉ onWay) :
    OnWay nodes ((parent, 0) :: stack) (onWay.insert parent) where
  distinct := List.nodup_cons.2 ⟨mt (way.marked parent).2 fresh, way.distinct⟩
  inside := List.forall_mem_cons.2 ⟨present, way.inside⟩
  marked other := by
    rw [Std.HashSet.mem_insert, way.marked, List.map_cons, List.mem_cons, beq_iff_eq, eq_comm]

theorem pop (way : OnWay nodes ((node, next) :: below) onWay) :
    OnWay nodes below (onWay.erase node) where
  distinct := (List.nodup_cons.1 way.distinct).2
  inside := (List.forall_mem_cons.1 way.inside).2
  marked other := by
    have absent := (List.nodup_cons.1 way.distinct).1
    rw [Std.HashSet.mem_erase, way.marked, List.map_cons, List.mem_cons, beq_eq_false_iff_ne]
    constructor
    · rintro ⟨apart, rfl | member⟩
      · exact absurd rfl apart
      · exact member
    · intro member
      exact ⟨fun same => absent (same ▸ member), Or.inr member⟩

/-- There is room for one more node on a way that misses one. -/
theorem length_lt (way : OnWay nodes stack onWay) (present : parent ∈ nodes)
    (fresh : parent ∉ onWay) : stack.length < nodes.length := by
  have longer := (way.push present fresh)
  have fits := (List.subperm_of_subset longer.distinct longer.inside).length_le
  rwa [List.length_map] at fits

end OnWay

section TryParent

variable {climb : List Int → Search → Search} {way : List Int} {parent : Int}

theorem tryParent_settled {above : Nat} (settled : height parent = some above) :
    tryParent height climb way search parent =
      { search with best := max search.best (way.length + above) } := by
  rw [tryParent, settled]

theorem tryParent_prolonged (unsettled : height parent = none) (unspent : 0 < search.budget)
    (fresh : parent ∉ way) :
    tryParent height climb way search parent =
      climb (parent :: way) ⟨search.budget - 1, max search.best (way.length + 1)⟩ := by
  simp [tryParent, unsettled, fresh, Nat.ne_of_gt unspent]

theorem tryParent_passed (unsettled : height parent = none)
    (passed : search.budget = 0 ∨ parent ∈ way) :
    tryParent height climb way search parent = search := by
  simp [tryParent, unsettled, passed]

end TryParent

theorem unwind_next {node : Int} {next : Nat} {below : List (Int × Nat)} (count : Nat)
    (more : next < (parents node).length) :
    unwind parents height count ((node, next) :: below) search =
      unwind parents height count ((node, next + 1) :: below)
        (tryParent height (climb parents height (count - (below.length + 1)))
          (node :: below.map Prod.fst) search (parents node)[next]) := by
  rw [unwind, unwind, List.drop_eq_getElem_cons more, List.foldl_cons]

theorem ascend_eq_unwind (closed : ∀ node ∈ nodes, ∀ parent ∈ parents node, parent ∈ nodes)
    (way : OnWay nodes stack onWay) (height : Int → Option Nat) (search : Search) :
    ascend parents height stack onWay search = unwind parents height nodes.length stack search := by
  fun_induction ascend parents height stack onWay search with
  | case1 onWay search => rfl
  | case2 onWay search node next below more parent stack above settled ih =>
      rw [ih way.advance, unwind_next _ more, tryParent_settled settled]
      simp [stack]
  | case3 onWay search node next below more parent stack unsettled step ih =>
      obtain ⟨unspent, fresh⟩ := step
      have fresh : parent ∉ onWay := by simpa using fresh
      have present : parent ∈ nodes :=
        closed node (way.inside node List.mem_cons_self) parent (List.getElem_mem more)
      -- The way misses a node, so the recursion has room for it.
      have fits : stack.length < nodes.length := way.advance.length_lt present fresh
      obtain ⟨room, enough⟩ : ∃ room, nodes.length - stack.length = room + 1 :=
        ⟨nodes.length - stack.length - 1, by omega⟩
      have less : nodes.length - (stack.length + 1) = room := by omega
      have length : (node :: below.map Prod.fst).length = stack.length := by simp [stack]
      have missed : parent ∉ node :: below.map Prod.fst := mt (way.marked parent).2 fresh
      have climbed : tryParent height (climb parents height (nodes.length - stack.length))
          (node :: below.map Prod.fst) search parent =
            (parents parent).foldl
              (tryParent height (climb parents height room) (parent :: node :: below.map Prod.fst))
              ⟨search.budget - 1, max search.best (stack.length + 1)⟩ := by
        rw [tryParent_prolonged unsettled unspent missed, enough, climb, length]
      rw [ih (way.advance.push present fresh), unwind_next _ more]
      refine Eq.trans ?_ (congrArg (unwind parents height nodes.length stack) climbed.symm)
      rw [unwind, less, List.drop_zero]
      rfl
  | case4 onWay search node next below more parent stack unsettled stay ih =>
      have passed : search.budget = 0 ∨ parent ∈ node :: below.map Prod.fst := by
        by_contra both
        obtain ⟨unspent, missed⟩ := not_or.1 both
        exact stay ⟨Nat.pos_of_ne_zero unspent, by simpa using mt (way.marked parent).1 missed⟩
      rw [ih way.advance, unwind_next _ more, tryParent_passed unsettled passed]
  | case5 onWay search node next below ended ih =>
      rw [ih way.pop, unwind, List.drop_of_length_le (Nat.not_lt.1 ended)]
      rfl

/-- A length that was known before is no hindrance: it is compared in the end as well. -/
theorem ascend_max (parents : Int → List Int) (height : Int → Option Nat) (stack : List (Int × Nat))
    (onWay : Std.HashSet Int) (search : Search) (known : Nat) :
    ascend parents height stack onWay { search with best := max known search.best } =
      { ascend parents height stack onWay search with
        best := max known (ascend parents height stack onWay search).best } := by
  fun_induction ascend parents height stack onWay search with
  | case1 onWay search => rw [ascend]
  | case2 onWay search node next below more parent stack above settled ih =>
      rw [ascend, dif_pos more]
      simp only [parent] at settled
      simp only [settled, Nat.max_assoc]
      exact ih
  | case3 onWay search node next below more parent stack unsettled step ih =>
      rw [ascend, dif_pos more]
      simp only [parent] at unsettled step
      simp only [unsettled, Nat.max_assoc, if_pos step]
      exact ih
  | case4 onWay search node next below more parent stack unsettled stay ih =>
      rw [ascend, dif_pos more]
      simp only [parent] at unsettled stay
      simp only [unsettled, if_neg stay]
      exact ih
  | case5 onWay search node next below ended ih => rw [ascend, dif_neg ended, ih]

theorem searchFrom_eq_climbFrom {links : Links} {start : Int}
    (closed : ∀ node ∈ links.nodes, ∀ parent ∈ links.lineage.parents node, parent ∈ links.nodes)
    (present : start ∈ links.nodes) (height : Std.HashMap Int Nat) (search : Search) :
    searchFrom links height search start = climbFrom links height search start := by
  unfold searchFrom climbFrom
  cases height[start]? with
  | some h => rfl
  | none =>
      have way : OnWay links.nodes [(start, 0)] (Std.HashSet.ofList [start]) :=
        ⟨List.nodup_singleton start, by simpa using present, fun node => by simpa using eq_comm⟩
      obtain ⟨count, filled⟩ : ∃ count, links.nodes.length = count + 1 :=
        Nat.exists_eq_succ_of_ne_zero (List.length_pos_of_mem present).ne'
      calc
        _ = ascend links.lineage.parents (height[·]?) [(start, 0)] (Std.HashSet.ofList [start])
              ⟨search.budget, max search.best 1⟩ := (ascend_max _ _ _ _ ⟨search.budget, 1⟩ _).symm
        _ = unwind links.lineage.parents (height[·]?) links.nodes.length [(start, 0)]
              ⟨search.budget, max search.best 1⟩ := ascend_eq_unwind closed way _ _
        _ = _ := by
          rw [filled]
          rfl

end Ascents

end DeclGraph.Hierarchy
