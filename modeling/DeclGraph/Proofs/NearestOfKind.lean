import Mathlib
import DeclGraph.Syntax.Names
import DeclGraph.Proofs.Places
import DeclGraph.Proofs.Reading

/-! The search for a node of a kind, level by level. Each level is listed here with the places of its nodes:
it holds all nodes of one depth in the order of the source. So the first node of a kind on the first level
that has one is the nearest, and the leftmost of those. -/
namespace DeclGraph.Syntax.Node

variable {root node found : Node} {place other : List Nat} {depth levels : Nat} {kind : String}

def entriesBelow (entry : List Nat × Node) : List (List Nat × Node) :=
  entry.2.children.zipIdx.map fun child => (entry.1 ++ [child.2], child.1)

def level (root : Node) : Nat → List (List Nat × Node)
  | 0 => [([], root)]
  | depth + 1 => (root.level depth).flatMap entriesBelow

theorem mem_entriesBelow {entry : List Nat × Node} : (place, node) ∈ entriesBelow entry ↔
    ∃ position, place = entry.1 ++ [position] ∧ entry.2.children[position]? = some node := by
  simp only [entriesBelow, List.mem_map, Prod.exists, List.mem_zipIdx_iff_getElem?, Prod.mk.injEq]
  constructor
  · rintro ⟨child, position, here, rfl, rfl⟩
    exact ⟨position, rfl, here⟩
  · rintro ⟨position, rfl, here⟩
    exact ⟨node, position, here, rfl, rfl⟩

theorem descend_concat_eq_some_iff {position : Nat} :
    root.descend (place ++ [position]) = some found ↔
      ∃ parent, root.descend place = some parent ∧ parent.children[position]? = some found := by
  rw [descend_append]
  simp only [descend, Option.bind_eq_some_iff, Option.some.injEq, exists_eq_right]

theorem mem_level : (place, node) ∈ root.level depth ↔
    root.descend place = some node ∧ place.length = depth := by
  induction depth generalizing place node with
  | zero =>
      simp only [level, List.mem_singleton, Prod.mk.injEq, List.length_eq_zero_iff]
      constructor
      · rintro ⟨rfl, rfl⟩
        exact ⟨rfl, rfl⟩
      · rintro ⟨here, rfl⟩
        exact ⟨rfl, (Option.some.inj here).symm⟩
  | succ depth ih =>
      simp only [level, List.mem_flatMap, Prod.exists, mem_entriesBelow]
      constructor
      · rintro ⟨above, parent, listed, position, rfl, child⟩
        obtain ⟨here, deep⟩ := ih.1 listed
        refine ⟨descend_concat_eq_some_iff.2 ⟨parent, here, child⟩, ?_⟩
        rw [List.length_append, deep, List.length_singleton]
      · rintro ⟨here, deep⟩
        -- A place below the root is a place one level up and a position there.
        obtain ⟨above, position, rfl⟩ : ∃ above position, place = above ++ [position] :=
          (List.eq_nil_or_concat' place).resolve_left fun empty => by simp [empty] at deep
        obtain ⟨parent, there, child⟩ := descend_concat_eq_some_iff.1 here
        have upper : above.length = depth := by simpa using deep
        exact ⟨above, parent, ih.2 ⟨there, upper⟩, position, rfl, child⟩

theorem append_lt_append_of_lt {above above' below below' : List Nat}
    (same : above.length = above'.length) (less : above < above') :
    above ++ below < above' ++ below' := by
  induction above generalizing above' with
  | nil =>
      rw [List.length_nil, eq_comm, List.length_eq_zero_iff] at same
      exact absurd less (by simp [same])
  | cons position above ih =>
      cases above' with
      | nil => cases same
      | cons position' above' =>
          rw [List.cons_append, List.cons_append, List.cons_lt_cons_iff]
          rcases List.cons_lt_cons_iff.1 less with earlier | ⟨rfl, later⟩
          · exact Or.inl earlier
          · exact Or.inr ⟨rfl, ih (Nat.succ.inj same) later⟩

/-- A level runs through the source. -/
theorem level_ordered (root : Node) (depth : Nat) :
    (root.level depth).Pairwise fun a b => a.1 < b.1 := by
  induction depth with
  | zero => exact List.pairwise_singleton _ _
  | succ depth ih =>
      refine List.pairwise_flatMap.2 ⟨fun entry _ => ?_, ?_⟩
      · refine List.pairwise_map.2 ((zipIdx_ordered entry.2.children 0).imp fun less => ?_)
        exact List.append_left_lt (List.cons_lt_cons_iff.2 (Or.inl less))
      · refine ih.imp_of_mem fun {first second} listed listed' less => ?_
        rintro ⟨early, node⟩ below ⟨late, node'⟩ below'
        obtain ⟨position, rfl, -⟩ := mem_entriesBelow.1 below
        obtain ⟨position', rfl, -⟩ := mem_entriesBelow.1 below'
        exact append_lt_append_of_lt ((mem_level.1 listed).2.trans (mem_level.1 listed').2.symm) less

def nodesAt (root : Node) (depth : Nat) : List Node :=
  (root.level depth).map Prod.snd

theorem nodesAt_succ (root : Node) (depth : Nat) :
    root.nodesAt (depth + 1) = (root.nodesAt depth).flatMap (·.children) := by
  rw [nodesAt, nodesAt, level, List.map_flatMap, List.flatMap_map]
  refine congrArg (List.flatMap · (root.level depth)) (funext fun entry => ?_)
  rw [entriesBelow, List.map_map]
  exact List.zipIdx_map_fst 0 _

/-- A node of a kind such that every other one is deeper, or as deep and later in the source. -/
structure Nearest (root : Node) (kind : String) (place : List Nat) (found : Node) : Prop where
  there : root.descend place = some found
  kind_eq : found.kind = kind
  least : ∀ other node, root.descend other = some node → node.kind = kind →
    place.length < other.length ∨ place.length = other.length ∧ place ≤ other

theorem Nearest.unique {found' : Node} (first : root.Nearest kind place found)
    (second : root.Nearest kind other found') : found = found' := by
  have forward := first.least other found' second.there second.kind_eq
  have backward := second.least place found first.there first.kind_eq
  have level : place.length = other.length := by omega
  have same : place = other :=
    le_antisymm (forward.resolve_left (Nat.lt_irrefl _ <| level ▸ ·)).2
      (backward.resolve_left (Nat.lt_irrefl _ <| level ▸ ·)).2
  have there := first.there
  rw [same, second.there] at there
  exact (Option.some.inj there).symm

theorem find?_nodesAt_eq_none_iff : (root.nodesAt depth).find? (·.kind == kind) = none ↔
    ∀ place node, root.descend place = some node → place.length = depth → node.kind ≠ kind := by
  simp only [List.find?_eq_none, nodesAt, List.mem_map, Prod.exists, beq_iff_eq]
  constructor
  · intro missing place node here deep
    exact missing node ⟨place, node, mem_level.2 ⟨here, deep⟩, rfl⟩
  · rintro missing _ ⟨place, node, listed, rfl⟩
    exact missing place node (mem_level.1 listed).1 (mem_level.1 listed).2

/-- The first node of a kind on a level comes before all others of the level. -/
theorem exists_first_of_find? (first : (root.nodesAt depth).find? (·.kind == kind) = some found) :
    ∃ place, root.descend place = some found ∧ place.length = depth ∧ found.kind = kind ∧
      ∀ other node, root.descend other = some node → node.kind = kind → other.length = depth →
        place ≤ other := by
  rw [nodesAt, List.find?_map, Option.map_eq_some_iff] at first
  obtain ⟨⟨place, _⟩, first, rfl⟩ := first
  obtain ⟨here, deep⟩ := mem_level.1 (List.mem_of_find?_eq_some first)
  have hit := List.find?_some first
  have sorted : (root.level depth).Pairwise fun a b => a.1 ≤ b.1 :=
    (root.level_ordered depth).imp fun less => le_of_lt less
  refine ⟨place, here, deep, beq_iff_eq.1 hit, fun other node there same deep' => ?_⟩
  exact find?_least sorted first (mem_level.2 ⟨there, deep'⟩) (beq_iff_eq.2 same)

theorem findInLevels_eq_none (missing : findInLevels kind levels (root.nodesAt depth) = none) :
    ∀ place node, root.descend place = some node → depth ≤ place.length →
      place.length < depth + levels → node.kind ≠ kind := by
  induction levels generalizing depth with
  | zero =>
      intro place node _ low high
      exact absurd high (Nat.not_lt.2 low)
  | succ levels ih =>
      rw [findInLevels] at missing
      split at missing
      next => cases missing
      next level =>
        rw [← nodesAt_succ] at missing
        intro place node here low high
        rcases Nat.eq_or_lt_of_le low with deep | below
        · exact find?_nodesAt_eq_none_iff.1 level place node here deep.symm
        · exact ih missing place node here below (by omega)

theorem findInLevels_nearest (success : findInLevels kind levels (root.nodesAt depth) = some found)
    (above : ∀ place node, root.descend place = some node → place.length < depth → node.kind ≠ kind) :
    ∃ place, place.length < depth + levels ∧ root.Nearest kind place found := by
  induction levels generalizing depth with
  | zero => cases success
  | succ levels ih =>
      rw [findInLevels] at success
      split at success
      next node first =>
        cases success
        obtain ⟨place, here, deep, kind_eq, leftmost⟩ := exists_first_of_find? first
        refine ⟨place, by omega, here, kind_eq, fun other node there same => ?_⟩
        rcases Nat.lt_trichotomy other.length depth with upper | level | lower
        · exact absurd same (above other node there upper)
        · exact Or.inr ⟨deep.trans level.symm, leftmost other node there same level⟩
        · exact Or.inl (by omega)
      next level =>
        rw [← nodesAt_succ] at success
        -- The level that was searched in vain joins those above.
        obtain ⟨place, bound, nearest⟩ := ih success fun place node here upper => by
          rcases Nat.eq_or_lt_of_le (Nat.lt_succ_iff.1 upper) with deep | upper
          · exact find?_nodesAt_eq_none_iff.1 level place node here deep
          · exact above place node here upper
        exact ⟨place, by omega, nearest⟩

/-- The search finds nothing exactly if there is no node of the kind on the levels it may enter, the start
and the deepest level included. What it finds otherwise is the node of the kind that is nearest to the
start, and the first in the source of those at that depth. -/
theorem nearest_of_kind_is_found (root : Node) (kind : String) :
    (root.findDescendant kind = none ↔ ∀ place node, root.descend place = some node →
      place.length ≤ maxWalkDepth → node.kind ≠ kind) ∧
    ∀ found, root.findDescendant kind = some found ↔
      ∃ place, place.length ≤ maxWalkDepth ∧ root.Nearest kind place found := by
  have start : root.findDescendant kind = findInLevels kind (maxWalkDepth + 1) (root.nodesAt 0) := rfl
  have missing : root.findDescendant kind = none → ∀ place node, root.descend place = some node →
      place.length ≤ maxWalkDepth → node.kind ≠ kind := by
    intro none place node here bound
    rw [start] at none
    exact findInLevels_eq_none none place node here (Nat.zero_le _) (by omega)
  have nearest : ∀ found, root.findDescendant kind = some found →
      ∃ place, place.length ≤ maxWalkDepth ∧ root.Nearest kind place found := by
    intro found success
    rw [start] at success
    obtain ⟨place, bound, nearest⟩ := findInLevels_nearest success fun _ _ _ upper =>
      absurd upper (Nat.not_lt_zero _)
    exact ⟨place, by omega, nearest⟩
  refine ⟨⟨missing, fun absent => ?_⟩, fun found => ⟨nearest found, ?_⟩⟩
  · cases result : root.findDescendant kind with
    | none => rfl
    | some found =>
        obtain ⟨place, bound, least⟩ := nearest found result
        exact absurd least.kind_eq (absent place found least.there bound)
  · rintro ⟨place, bound, least⟩
    cases result : root.findDescendant kind with
    | none => exact absurd least.kind_eq (missing result place found least.there bound)
    | some other =>
        obtain ⟨_, -, least'⟩ := nearest other result
        rw [least.unique least']

-- The name of the decorator comes first in the source, but it stands deeper than the other two.
example :
    let decorated := branch "decorated_definition"
      [branch "decorator" [branch "call" [token "identifier" "cached"]],
        branch "head" [token "identifier" "area"], branch "body" [token "identifier" "width"]]
    decorated.findDescendant "identifier" = some (token "identifier" "area") ∧
      decorated.findDescendant "string" = none :=
  ⟨rfl, rfl⟩

end DeclGraph.Syntax.Node
