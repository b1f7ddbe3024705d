/-! Syntax trees. A node has a kind, the text it covers, its lines and its children in source order.
Some descendants are also known by a field name; nearly always these are children. -/
namespace DeclGraph.Syntax

/-- The way from a node to one of its proper descendants: a child by position, then its child, and
so on. -/
structure Route where
  child : Nat
  below : List Nat := []
  deriving DecidableEq, Repr

structure Node where
  /-- The row of the table the node was read from. -/
  row : Nat := 0
  /-- The grammar's name for the node, such as `class_declaration` or `(`. -/
  kind : String
  text : String
  startLine : UInt32 := 1
  endLine : UInt32 := 1
  fields : List (String × Route) := []
  children : List Node := []

namespace Node

def descend : Node → List Nat → Option Node
  | node, [] => some node
  | node, position :: path => node.children[position]?.bind (descend · path)

def field? (node : Node) (name : String) : Option Node :=
  (node.fields.lookup name).bind fun route =>
    node.children[route.child]?.bind (descend · route.below)

theorem sizeOf_children (node : Node) : sizeOf node.children < sizeOf node := by
  cases node
  simp only [Node.mk.sizeOf_spec]
  omega

theorem sizeOf_child {node child : Node} {position : Nat}
    (found : node.children[position]? = some child) : sizeOf child < sizeOf node :=
  Nat.lt_trans (List.sizeOf_lt_of_mem (List.mem_of_getElem? found)) (sizeOf_children node)

theorem sizeOf_descend {path : List Nat} {node inner : Node}
    (found : node.descend path = some inner) : sizeOf inner ≤ sizeOf node := by
  induction path generalizing node with
  | nil =>
    simp only [descend, Option.some.injEq] at found
    exact Nat.le_of_eq (congrArg sizeOf found.symm)
  | cons position path ih =>
    simp only [descend, Option.bind_eq_some_iff] at found
    obtain ⟨child, here, below⟩ := found
    exact Nat.le_of_lt (Nat.lt_of_le_of_lt (ih below) (sizeOf_child here))

/-- A field leads properly downwards, so a chain of fields ends. -/
theorem sizeOf_field {node inner : Node} {name : String}
    (found : node.field? name = some inner) : sizeOf inner < sizeOf node := by
  simp only [field?, Option.bind_eq_some_iff] at found
  obtain ⟨route, _, child, here, below⟩ := found
  exact Nat.lt_of_le_of_lt (sizeOf_descend below) (sizeOf_child here)

def followField (name : String) (node : Node) : Node :=
  match _found : node.field? name with
  | none => node
  | some inner => inner.followField name
termination_by sizeOf node
decreasing_by exact sizeOf_field _found

def childrenOfKind (node : Node) (kinds : List String) : List Node :=
  node.children.filter fun child => kinds.contains child.kind

def hasChildOfKind (node : Node) (kind : String) : Bool :=
  node.children.any (·.kind == kind)

end Node

end DeclGraph.Syntax
