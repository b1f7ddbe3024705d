import DeclGraph.Entity
import DeclGraph.Syntax.Names

/-! The parents a declaration names, language by language. Each rule knows where its grammar keeps
the heritage of a declaration; the names themselves are collected alike for all. -/
namespace DeclGraph.Extract

open Syntax

def parentsIn (heritage : Heritage) (node : Node) : List Parent :=
  node.names.map fun symbol => { symbol, heritage }

def javaParents (node : Node) : List Parent :=
  node.children.flatMap fun child =>
    if child.kind == "superclass" || child.kind == "extends_interfaces" then
      parentsIn .extension child
    else if child.kind == "super_interfaces" then parentsIn .implementation child
    else []

def heritageParents (heritage : Node) : List Parent :=
  match heritage.childrenOfKind ["extends_clause", "implements_clause"] with
  -- Without clauses it holds the superclass itself.
  | [] => parentsIn .extension heritage
  | clauses => clauses.flatMap fun clause =>
    parentsIn (if clause.kind == "extends_clause" then .extension else .implementation) clause

def scriptParents (node : Node) : List Parent :=
  node.children.flatMap fun child =>
    if child.kind == "class_heritage" then heritageParents child
    else if child.kind == "extends_type_clause" then parentsIn .extension child
    else []

def pythonParents (node : Node) : List Parent :=
  match (node.field? "superclasses").or (node.childrenOfKind ["argument_list"]).head? with
  | none => []
  | some arguments => arguments.children.flatMap fun entry =>
    -- Named arguments are no parents.
    if entry.kind == "keyword_argument" || entry.text.any (· == '=') then []
    else parentsIn .extension entry

/-- One list holds the base class and the interfaces alike, so that all of them count as
implemented, unless the declaration is an interface itself. -/
def csharpParents (node : Node) : List Parent :=
  let heritage : Heritage :=
    if node.kind == "interface_declaration" then .extension else .implementation
  (node.childrenOfKind ["base_list"]).flatMap (parentsIn heritage)

def cppParents (node : Node) : List Parent :=
  (node.childrenOfKind ["base_class_clause"]).flatMap (parentsIn .extension)

def mixinParents (call : Node) : List Parent :=
  match call.field? "receiver", call.field? "method", call.field? "arguments" with
  | none, some method, some arguments =>
    if ["include", "extend", "prepend"].contains method.text then
      arguments.children.flatMap (parentsIn .mixin)
    else []
  | _, _, _ => []

def rubyParents (node : Node) : List Parent :=
  node.children.flatMap fun child =>
    if child.kind == "superclass" then parentsIn .extension child
    else if child.kind == "call" then mixinParents child
    else if child.kind == "body_statement" then
      (child.childrenOfKind ["call"]).flatMap mixinParents
    else []

/-- In `impl Trait for Type` the trait stands before the `for`; an `impl` without `for` names
none. -/
def rustParents (node : Node) : List Parent :=
  if node.kind == "impl_item" && node.hasChildOfKind "for" then
    (node.children.takeWhile (·.kind != "for")).flatMap fun child =>
      if child.kind == "type_parameters" then [] else parentsIn .implementation child
  else []

def implSubject? (node : Node) : Option String :=
  if node.kind == "impl_item" then (node.field? "type").bind (·.names.head?) else none

def swiftParents (node : Node) : List Parent :=
  (node.childrenOfKind
    ["inheritance_clause", "type_inheritance_clause", "inheritance_specifier"]).flatMap
      (parentsIn .extension)

/-- Traits used in the body of a class; the block that settles conflicts between them names none. -/
def usedTraits (body : Node) : List Parent :=
  (body.childrenOfKind ["use_declaration"]).flatMap fun usage =>
    usage.children.flatMap fun name =>
      if name.kind == "use_list" then [] else parentsIn .trait name

def phpParents (node : Node) : List Parent :=
  node.children.flatMap fun child =>
    if child.kind == "base_clause" then parentsIn .extension child
    else if child.kind == "class_interface_clause" then parentsIn .implementation child
    else if child.kind == "declaration_list" then usedTraits child
    else []

def goParents (node : Node) : List Parent :=
  match node.field? "type" with
  | none => []
  | some type =>
    if type.kind == "struct_type" then
      (type.childrenOfKind ["field_declaration_list"]).flatMap fun fields =>
        (fields.childrenOfKind ["field_declaration"]).flatMap fun field =>
          -- A field without a name is an embedded type.
          if field.hasChildOfKind "field_identifier" then [] else parentsIn .embedding field
    else if type.kind == "interface_type" then
      (type.childrenOfKind ["type_elem", "constraint_elem", "interface_type_name"]).flatMap
        (parentsIn .embedding)
    else []

def parentRule? : Language → Option (Node → List Parent)
  | .java => some javaParents
  | .typescript | .tsx | .javascript | .jsx => some scriptParents
  | .python => some pythonParents
  | .csharp => some csharpParents
  | .cpp => some cppParents
  | .ruby => some rubyParents
  | .rust => some rustParents
  | .swift => some swiftParents
  | .php => some phpParents
  | .go => some goParents
  | .c => none

def firstOccurrences {α : Type} [DecidableEq α] : List α → List α → List α
  | _, [] => []
  | seen, x :: rest =>
    if seen.contains x then firstOccurrences seen rest
    else x :: firstOccurrences (x :: seen) rest

def parents (language : Language) (node : Node) : List Parent :=
  match parentRule? language with
  | none => []
  | some rule => firstOccurrences [] (rule node)

end DeclGraph.Extract
