import Mathlib
import DeclGraph.Syntax.Node

/-! The places of the nodes of a tree. A place is the way down from the root, one child position after the
other, so that nodes that look alike still stand at different places. Places are compared as lists are: a
node comes before all that is below it, and what is below a child before what is below a later one. This is
the order of the source. -/
namespace DeclGraph.Syntax.Node

variable {root node : Node} {place above below : List Nat} {position : Nat}

theorem descend_cons_eq_some_iff {found : Node} :
    node.descend (position :: place) = some found ↔
      ∃ child, node.children[position]? = some child ∧ child.descend place = some found := by
  simp only [descend, Option.bind_eq_some_iff]

theorem descend_append (node : Node) (above below : List Nat) :
    node.descend (above ++ below) = (node.descend above).bind (descend · below) := by
  induction above generalizing node with
  | nil => rfl
  | cons position above ih =>
      simp only [List.cons_append, descend]
      cases node.children[position]? with
      | none => rfl
      | some child => exact ih child

mutual

def places : Node → List (List Nat)
  | ⟨_, _, _, _, _, _, children⟩ => [] :: placesFrom 0 children

def placesFrom : Nat → List Node → List (List Nat)
  | _, [] => []
  | position, node :: rest => node.places.map (position :: ·) ++ placesFrom (position + 1) rest

end

theorem places_eq (node : Node) : node.places = [] :: placesFrom 0 node.children := by
  cases node
  rw [places]

theorem mem_placesFrom {nodes : List Node} :
    place ∈ placesFrom position nodes ↔ ∃ offset node below,
      nodes[offset]? = some node ∧ place = (position + offset) :: below ∧ below ∈ node.places := by
  induction nodes generalizing position with
  | nil => simp [placesFrom]
  | cons first rest ih =>
      rw [placesFrom, List.mem_append, List.mem_map, ih]
      constructor
      · rintro (⟨below, member, rfl⟩ | ⟨offset, node, below, found, rfl, member⟩)
        · exact ⟨0, first, below, rfl, rfl, member⟩
        · exact ⟨offset + 1, node, below, found, by rw [Nat.add_assoc, Nat.add_comm 1], member⟩
      · rintro ⟨offset, node, below, found, rfl, member⟩
        cases offset with
        | zero =>
            cases found
            exact Or.inl ⟨below, member, rfl⟩
        | succ offset =>
            exact Or.inr ⟨offset, node, below, found, by rw [Nat.add_assoc, Nat.add_comm 1], member⟩

/-- All nodes of the tree have their places in the list. -/
theorem mem_places : place ∈ root.places ↔ ∃ node, root.descend place = some node := by
  induction place generalizing root with
  | nil => simp [places_eq, descend]
  | cons position place ih =>
      rw [places_eq, List.mem_cons, mem_placesFrom]
      simp only [reduceCtorEq, false_or, Nat.zero_add, List.cons.injEq, descend_cons_eq_some_iff]
      constructor
      · rintro ⟨_, child, _, here, ⟨rfl, rfl⟩, member⟩
        obtain ⟨node, found⟩ := ih.1 member
        exact ⟨node, child, here, found⟩
      · rintro ⟨node, child, here, found⟩
        exact ⟨position, child, place, here, ⟨rfl, rfl⟩, ih.2 ⟨node, found⟩⟩

mutual

/-- The list runs through the source, so no place occurs twice. -/
theorem places_ordered : ∀ root : Node, root.places.Pairwise (· < ·)
  | ⟨_, _, _, _, _, _, children⟩ => by
      rw [places]
      refine List.pairwise_cons.2 ⟨fun place member => ?_, placesFrom_ordered 0 children⟩
      obtain ⟨offset, node, below, -, rfl, -⟩ := mem_placesFrom.1 member
      exact List.nil_lt_cons _ _

theorem placesFrom_ordered : ∀ (position : Nat) (nodes : List Node),
    (placesFrom position nodes).Pairwise (· < ·)
  | _, [] => by
      rw [placesFrom]
      exact List.Pairwise.nil
  | position, node :: rest => by
      rw [placesFrom]
      refine List.pairwise_append.2 ⟨?_, placesFrom_ordered (position + 1) rest, ?_⟩
      · refine List.pairwise_map.2 ((places_ordered node).imp fun less => ?_)
        exact List.cons_lt_cons_iff.2 (Or.inr ⟨rfl, less⟩)
      · intro early first late second
        obtain ⟨below, -, rfl⟩ := List.mem_map.1 first
        obtain ⟨offset, other, rest, -, rfl, -⟩ := mem_placesFrom.1 second
        exact List.cons_lt_cons_iff.2 (Or.inl (by omega))

end

theorem lt_of_isPrefix (leads : above <+: place) (proper : above ≠ place) : above < place := by
  induction above generalizing place with
  | nil =>
      cases place with
      | nil => exact absurd rfl proper
      | cons position place => exact List.nil_lt_cons _ _
  | cons position above ih =>
      obtain ⟨below, rfl⟩ := leads
      have differs : above ≠ above ++ below := fun same => proper (congrArg (position :: ·) same)
      exact List.cons_lt_cons_iff.2 (Or.inr ⟨rfl, ih (List.prefix_append above below) differs⟩)

theorem zipIdx_ordered {α : Type} (items : List α) (start : Nat) :
    (items.zipIdx start).Pairwise fun a b => a.2 < b.2 := by
  induction items generalizing start with
  | nil => exact .nil
  | cons item rest ih =>
      rw [List.zipIdx_cons]
      exact List.pairwise_cons.2 ⟨fun later member => List.le_snd_of_mem_zipIdx member, ih (start + 1)⟩

def holdsAt (root : Node) (test : Node → Bool) (place : List Nat) : Bool :=
  (root.descend place).any test

theorem holdsAt_eq {test : Node → Bool} (found : root.descend place = some node) :
    root.holdsAt test place = test node := by
  rw [holdsAt, found, Option.any_some]

/-! Trees written out: the text of an inner node and the lines do not matter for them. -/

def token (kind text : String) : Node where
  kind := kind
  text := text

def branch (kind : String) (children : List Node) (fields : List (String × Route) := []) : Node where
  kind := kind
  text := ""
  fields := fields
  children := children

end DeclGraph.Syntax.Node
