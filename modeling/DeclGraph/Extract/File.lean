import DeclGraph.Extract.Parents

/-! The declarations, implementation blocks and calls of one file, in source order. -/
namespace DeclGraph.Extract

open Syntax

structure Definition where
  symbol : String
  kind : EntityKind
  startLine : UInt32
  endLine : UInt32
  source : Option String
  parents : List Parent
  deriving DecidableEq, Repr

structure ImplBlock where
  subject : String
  line : UInt32
  parents : List Parent
  deriving DecidableEq, Repr

structure CallSite where
  /-- The calling function, as an index into the definitions of the file. -/
  caller : Nat
  callee : String
  line : UInt32
  /-- The first line of the call, cut to a bounded length. -/
  snippet : Option String
  deriving DecidableEq, Repr

structure Findings where
  definitions : List Definition := []
  impls : List ImplBlock := []
  calls : List CallSite := []
  deriving DecidableEq, Repr

structure FileFacts extends Findings where
  filename : String
  language : Language
  deriving DecidableEq, Repr

def scriptKind? (node : Node) : Option EntityKind :=
  if ["function_declaration", "generator_function_declaration", "method_definition"].contains
      node.kind then some .function
  else if ["class_declaration", "abstract_class_declaration"].contains node.kind then some .cls
  else if node.kind == "interface_declaration" then some .interface
  else if node.kind == "variable_declarator" then
    match node.field? "value" with
    | some value =>
      if ["arrow_function", "function_expression", "function"].contains value.kind then
        some .function
      else none
    | none => none
  else none

def goKind? (node : Node) : Option EntityKind :=
  if ["function_declaration", "method_declaration"].contains node.kind then some .function
  else if node.kind == "type_spec" then
    -- A type counts by what it is defined as.
    match node.field? "type" with
    | some type =>
      if type.kind == "struct_type" then some .struct
      else if type.kind == "interface_type" then some .interface
      else none
    | none => none
  else none

def cKind? (node : Node) : Option EntityKind :=
  if node.kind == "function_definition" then some .function
  -- Without a body nothing is declared.
  else if node.kind == "class_specifier" && (node.field? "body").isSome then some .cls
  else if node.kind == "struct_specifier" && (node.field? "body").isSome then some .struct
  else none

def swiftKind? (node : Node) : Option EntityKind :=
  if node.kind == "class_declaration" then
    -- The kind of node stands for several kinds of declaration.
    let keyword := ((node.field? "declaration_kind").map (·.text)).getD "class"
    if keyword == "class" || keyword == "actor" then some .cls
    else if keyword == "struct" || keyword == "enum" then some .struct
    else none
  else if node.kind == "protocol_declaration" then some .interface
  else if node.kind == "function_declaration" then some .function
  else none

def kindTable : Language → List (String × EntityKind)
  | .java => [("class_declaration", .cls), ("record_declaration", .cls),
      ("interface_declaration", .interface), ("method_declaration", .function),
      ("constructor_declaration", .function)]
  | .python => [("function_definition", .function), ("class_definition", .cls)]
  | .rust => [("function_item", .function), ("struct_item", .struct), ("enum_item", .struct),
      ("union_item", .struct), ("trait_item", .trait)]
  | .csharp => [("class_declaration", .cls), ("record_declaration", .cls),
      ("struct_declaration", .struct), ("interface_declaration", .interface),
      ("method_declaration", .function), ("constructor_declaration", .function),
      ("local_function_statement", .function)]
  | .php => [("class_declaration", .cls), ("interface_declaration", .interface),
      ("trait_declaration", .trait), ("function_definition", .function),
      ("method_declaration", .function)]
  | .ruby => [("class", .cls), ("module", .trait), ("method", .function),
      ("singleton_method", .function)]
  | _ => []

def definitionKind? (language : Language) (node : Node) : Option EntityKind :=
  match language with
  | .typescript | .tsx | .javascript | .jsx => scriptKind? node
  | .go => goKind? node
  | .c | .cpp => cKind? node
  | .swift => swiftKind? node
  | _ => (kindTable language).lookup node.kind

/-- The name of a declaration. That of a C function sits at the end of a chain of declarators. -/
def definitionName? (language : Language) (node : Node) : Option String :=
  if (language == .c || language == .cpp) && node.kind == "function_definition" then
    (node.field? "declarator").bind fun declarator =>
      (declarator.followField "declarator").lastSegment?
  else (node.field? "name").bind (·.lastSegment?)

def callKinds : List String :=
  ["call_expression", "call", "method_invocation", "invocation_expression",
    "function_call_expression", "member_call_expression", "scoped_call_expression",
    "nullsafe_member_call_expression"]

def callTarget? (node : Node) : Option Node :=
  (node.field? "function").or
    ((node.field? "method").or ((node.field? "name").or node.children.head?))

def calleeName? (node : Node) : Option String :=
  (callTarget? node).bind (·.names.getLast?)

def maxSnippetLength : Nat := 120

def snippet? (text : String) : Option String :=
  let line := Text.trim (Text.firstLine text)
  if line.isEmpty then none else some (String.ofList (line.toList.take maxSnippetLength))

namespace Findings

def addDefinition (found : Findings) (definition : Definition) : Findings :=
  { found with definitions := found.definitions ++ [definition] }

def addImpl (found : Findings) (block : ImplBlock) : Findings :=
  { found with impls := found.impls ++ [block] }

def addCall (found : Findings) (call : CallSite) : Findings :=
  { found with calls := found.calls ++ [call] }

end Findings

def definition? (language : Language) (storeSource : Bool) (node : Node) : Option Definition := do
  let kind ← definitionKind? language node
  let symbol ← definitionName? language node
  some
    { symbol
      kind
      startLine := node.startLine
      endLine := node.endLine
      source := if storeSource then some node.text else none
      parents := if kind.isType then parents language node else [] }

def implBlock? (language : Language) (node : Node) : Option ImplBlock :=
  match implSubject? node, parents language node with
  | some subject, first :: rest =>
    some { subject, line := node.startLine, parents := first :: rest }
  | _, _ => none

def callSite? (enclosing : Option Nat) (node : Node) : Option CallSite :=
  match enclosing, calleeName? node with
  | some caller, some callee =>
    some { caller, callee, line := node.startLine, snippet := snippet? node.text }
  | _, _ => none

/-- What one node adds to the findings, and the function that encloses its children. A node of a
declaring kind is never a block or a call, even if it has no name. -/
def visitNode (language : Language) (storeSource : Bool) (enclosing : Option Nat)
    (node : Node) (found : Findings) : Findings × Option Nat :=
  if (definitionKind? language node).isSome then
    match definition? language storeSource node with
    | none => (found, enclosing)
    | some definition =>
      (found.addDefinition definition,
        if definition.kind = .function then some found.definitions.length else enclosing)
  else if node.kind == "impl_item" then
    match implBlock? language node with
    | none => (found, enclosing)
    | some block => (found.addImpl block, enclosing)
  else if callKinds.contains node.kind then
    match callSite? enclosing node with
    | none => (found, enclosing)
    | some call => (found.addCall call, enclosing)
  else (found, enclosing)

structure Pending where
  node : Node
  enclosing : Option Nat

def pushChildren (scope : Option Nat) (children : List Node) (stack : List Pending) : List Pending :=
  -- From right to left, so that the leftmost child is on top.
  children.reverse.foldl (fun stack child => { node := child, enclosing := scope } :: stack) stack

theorem pushChildren_eq (scope : Option Nat) (children : List Node) (stack : List Pending) :
    pushChildren scope children stack =
      children.map (fun child => { node := child, enclosing := scope }) ++ stack := by
  rw [pushChildren, List.foldl_reverse]
  induction children with
  | nil => rfl
  | cons child rest ih => rw [List.foldr_cons, ih, List.map_cons, List.cons_append]

/-- A tree is larger than all the trees below its root together. -/
theorem sizeOf_pushChildren (scope : Option Nat) (top : Pending) (stack : List Pending) :
    sizeOf ((pushChildren scope top.node.children stack).map (·.node)) <
      sizeOf ((top :: stack).map (·.node)) := by
  have joined (first second : List Node) : sizeOf (first ++ second) + 1 = sizeOf first + sizeOf second := by
    induction first with
    | nil => simp only [List.nil_append, List.nil.sizeOf_spec, Nat.add_comm]
    | cons node rest ih =>
      simp only [List.cons_append, List.cons.sizeOf_spec]
      omega
  have below := joined top.node.children (stack.map (·.node))
  have above := top.node.sizeOf_children
  rw [pushChildren_eq, List.map_append, List.map_map, List.map_cons, List.cons.sizeOf_spec]
  simp only [Function.comp_def, List.map_id']
  omega

def walk (language : Language) (storeSource : Bool) (stack : List Pending) (found : Findings) :
    Findings :=
  match stack with
  | [] => found
  | top :: stack =>
    let visited := visitNode language storeSource top.enclosing top.node found
    walk language storeSource (pushChildren visited.2 top.node.children stack) visited.1
termination_by sizeOf (stack.map (·.node))
decreasing_by exact sizeOf_pushChildren _ top stack

def fileFacts (filename : String) (language : Language) (storeSource : Bool) (root : Node) :
    FileFacts :=
  { walk language storeSource [{ node := root, enclosing := none }] {} with filename, language }

end DeclGraph.Extract
