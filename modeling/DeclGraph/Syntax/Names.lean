import DeclGraph.Syntax.Node
import DeclGraph.Text.Blank
import DeclGraph.Text.Identifier

/-! The names that stand in a piece of syntax, and the search for a node of a kind. -/
namespace DeclGraph.Syntax

def maxWalkDepth : Nat := 64

def keywords : List String :=
  ["extends", "implements", "public", "private", "protected", "virtual"]

def skippedKinds : List String :=
  ["type_arguments", "type_parameters", "type_argument_list", "type_parameter_list",
    "template_argument_list", "arguments", "argument_list", "keyword_argument", "list_splat",
    "dictionary_splat"]

/-- Dotted and scoped names, of which only the last segment counts. -/
def qualifiedKinds : List String :=
  ["scoped_type_identifier", "scoped_identifier", "qualified_name", "nested_type_identifier",
    "member_expression", "attribute", "scope_resolution", "qualified_identifier", "qualified_type"]

def isIdentifierKind (kind : String) : Bool :=
  kind == "identifier" || kind.endsWith "_identifier" || kind == "constant" || kind == "name"

namespace Node

def ownName? (node : Node) : Option String :=
  let text := Text.trim node.text
  if isIdentifierKind node.kind && Text.isIdentifier text && !keywords.contains text then some text
  else none

/-- The names under a node, on the given number of levels, in source order. A qualified name counts
as its last segment and a subscript as its value. -/
def namesWithin : Nat → Node → List String
  | 0, _ => []
  | levels + 1, node =>
    if skippedKinds.contains node.kind then []
    else if qualifiedKinds.contains node.kind then
      (node.children.flatMap (namesWithin levels)).getLast?.toList
    else if node.kind == "subscript" then
      ((node.field? "value").map (namesWithin levels)).getD []
    else if node.children.isEmpty then node.ownName?.toList
    else node.children.flatMap (namesWithin levels)

def names (node : Node) : List String :=
  node.namesWithin (maxWalkDepth + 1)

/-- The last name under a node, or else its text if that is one word: some names, such as `save!`,
are no identifiers. -/
def lastSegment? (node : Node) : Option String :=
  match node.names.getLast? with
  | some name => some name
  | none =>
    let text := Text.trim node.text
    if text.isEmpty || text.any Text.isBlank then none else some text

def findInLevels (kind : String) : Nat → List Node → Option Node
  | 0, _ => none
  | levels + 1, level =>
    match level.find? (·.kind == kind) with
    | some node => some node
    | none => findInLevels kind levels (level.flatMap (·.children))

def findDescendant (node : Node) (kind : String) : Option Node :=
  findInLevels kind (maxWalkDepth + 1) [node]

end Node

end DeclGraph.Syntax
