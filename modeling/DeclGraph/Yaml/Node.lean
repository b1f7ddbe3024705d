import DeclGraph.Yaml.Token

/-! The nodes that the tokens of a YAML document make up. A missing node counts as an empty scalar where
a collection says that one belongs there. -/
namespace DeclGraph.Yaml

structure Feed where
  tokens : List Token
  /-- What the handles of tags stand for. -/
  handles : List (String × String) := [("!", "!"), ("!!", "tag:yaml.org,2002:")]
  /-- The names of anchors with the numbers they stand for, and each name once. -/
  names : List (String × Nat) := []
  anchors : Nat := 0
  anchored : List Anchored := []

abbrev Read := StateT Feed Option

namespace Read

def peek : Read (Option Token) := do
  return (← get).tokens.head?

def skip : Read Unit :=
  modify fun feed => { feed with tokens := feed.tokens.tail }

def openAnchor (name : String) : Read (Nat × Nat) := do
  let feed ← get
  let number := feed.names.length
  set { feed with
    names := (name, number) :: feed.names.filter (·.1 != name), anchors := feed.anchors + 1 }
  return (number, feed.anchors)

def closeAnchor (opened : Nat × Nat) (node : Yaml) : Read Unit :=
  modify fun feed => { feed with anchored := ⟨opened.1, opened.2, node⟩ :: feed.anchored }

def reference (name : String) : Read Yaml := do
  match (← get).names.lookup name with
  | some number => return .reference number
  | none => failure

def tagText (tag : Tag) : Read String := do
  if tag.handle.isEmpty then return tag.suffix
  else
    match (← get).handles.lookup tag.handle with
    | some meaning => return meaning ++ tag.suffix
    | none => failure

structure Properties where
  anchor : Option String := none
  tag : Option Tag := none

def properties : Read Properties := do
  match ← peek with
  | some (.anchor name) =>
    skip
    match ← peek with
    | some (.tag tag) =>
      skip
      return ⟨some name, some tag⟩
    | _ => return ⟨some name, none⟩
  | some (.tag tag) =>
    skip
    match ← peek with
    | some (.anchor name) =>
      skip
      return ⟨some name, some tag⟩
    | _ => return ⟨none, some tag⟩
  | _ => return {}

def endsEntry : Option Token → Bool
  | some .key | some .value | some .blockEnd => true
  | _ => false

def endsItem (indented : Bool) : Option Token → Bool
  | some .dash | some .blockEnd => true
  | some .key | some .value => !indented
  | _ => false

mutual

/-- Reads a node. Block collections may stand where `block` says so, and a sequence that is indented no
more than its key where `indentless` says so. -/
def node : Nat → Bool → Bool → Read Yaml
  | 0, _, _ => failure
  | fuel + 1, block, indentless => do
    match ← peek with
    | some (.reference name) =>
      skip
      reference name
    | _ =>
      let properties ← properties
      let tag ← properties.tag.mapM tagText
      match properties.anchor with
      | none => content fuel block indentless properties.tag.isSome tag
      | some name =>
        let opened ← openAnchor name
        let node ← content fuel block indentless true tag
        closeAnchor opened node
        return node

/-- Reads what a node holds; behind an anchor or a tag it may hold nothing. A lone exclamation mark
is no tag of a scalar. -/
def content : Nat → Bool → Bool → Bool → Option String → Read Yaml
  | 0, _, _, _, _ => failure
  | fuel + 1, block, indentless, mayMiss, tag => do
    let missing : Read Yaml := if mayMiss then return .scalar "" .plain tag else failure
    match ← peek with
    | some .dash => if indentless then items fuel false [] else missing
    | some (.scalar text style) =>
      skip
      return .scalar text style (tag.filter (· != "!"))
    | some .bracketOpen =>
      skip
      flowItems fuel true []
    | some .braceOpen =>
      skip
      flowEntries fuel true []
    | some .sequenceStart =>
      if block then
        skip
        items fuel true []
      else missing
    | some .mappingStart =>
      if block then
        skip
        entries fuel []
      else missing
    | _ => missing

def items : Nat → Bool → List Yaml → Read Yaml
  | 0, _, _ => failure
  | fuel + 1, indented, done => do
    match ← peek with
    | some .dash =>
      skip
      let item ← if endsItem indented (← peek) then pure .empty else node fuel true false
      items fuel indented (item :: done)
    | some .blockEnd =>
      if indented then skip
      return .sequence done.reverse
    | _ => if indented then failure else return .sequence done.reverse

def entries : Nat → List (Yaml × Yaml) → Read Yaml
  | 0, _ => failure
  | fuel + 1, done => do
    match ← peek with
    | some .key =>
      skip
      let key ← if endsEntry (← peek) then pure .empty else node fuel true true
      let value ← blockValue fuel
      entries fuel ((key, value) :: done)
    | some .blockEnd =>
      skip
      return .mapping done.reverse
    | _ => failure

def blockValue : Nat → Read Yaml
  | 0 => failure
  | fuel + 1 => do
    match ← peek with
    | some .value =>
      skip
      if endsEntry (← peek) then return .empty else node fuel true true
    | _ => return .empty

def flowItems : Nat → Bool → List Yaml → Read Yaml
  | 0, _, _ => failure
  | fuel + 1, first, done => do
    if !first then
      match ← peek with
      | some .comma => skip
      | some .bracketClose => pure ()
      | _ => failure
    match ← peek with
    | some .bracketClose =>
      skip
      return .sequence done.reverse
    | some .key =>
      -- A key makes its item a mapping of one entry.
      skip
      let key ← flowItemKey fuel
      let value ← flowValue fuel .bracketClose
      flowItems fuel false (.mapping [(key, value)] :: done)
    | _ =>
      let item ← node fuel false false
      flowItems fuel false (item :: done)

def flowItemKey : Nat → Read Yaml
  | 0 => failure
  | fuel + 1 => do
    match ← peek with
    | some .value | some .comma | some .bracketClose =>
      -- The mark that shows that the key is missing is passed over.
      skip
      return .empty
    | _ => node fuel false false

def flowValue : Nat → Token → Read Yaml
  | 0, _ => failure
  | fuel + 1, closing => do
    match ← peek with
    | some .value =>
      skip
      match ← peek, closing with
      | some .comma, _ => return .empty
      | some .bracketClose, .bracketClose => return .empty
      | some .braceClose, .braceClose => return .empty
      | _, _ => node fuel false false
    | _ => return .empty

def flowEntries : Nat → Bool → List (Yaml × Yaml) → Read Yaml
  | 0, _, _ => failure
  | fuel + 1, first, done => do
    if !first then
      match ← peek with
      | some .comma => skip
      | some .braceClose => pure ()
      | _ => failure
    match ← peek with
    | some .braceClose =>
      skip
      return .mapping done.reverse
    | some .key =>
      skip
      let key ← match ← peek with
        | some .value | some .comma | some .braceClose => pure .empty
        | _ => node fuel false false
      let value ← flowValue fuel .braceClose
      flowEntries fuel false ((key, value) :: done)
    | _ =>
      -- A node that is no key is one without a value.
      let key ← node fuel false false
      flowEntries fuel false ((key, .empty) :: done)

end

def directives : Nat → Bool → List (String × String) → Read Unit
  | 0, _, _ => failure
  | fuel + 1, versioned, given => do
    match ← peek with
    | some (.directive (.version major minor)) =>
      if versioned || major != 1 || !(minor == 1 || minor == 2) then failure
      skip
      directives fuel true given
    | some (.directive (.handle name meaning)) =>
      if (given.lookup name).isSome then failure
      skip
      directives fuel versioned ((name, meaning) :: given)
    | _ => modify fun feed => { feed with handles := given ++ feed.handles }

def root (fuel : Nat) : Read Yaml := do
  match ← peek with
  | none => return .empty
  | some (.directive _) | some .documentStart =>
    directives fuel false []
    match ← peek with
    | some .documentStart =>
      skip
      match ← peek with
      | none | some (.directive _) | some .documentStart | some .documentEnd => return .empty
      | _ => node fuel true false
    | _ => failure
  | _ => node fuel true false

end Read

def Token.isDocumentEnd : Token → Bool
  | .documentEnd => true
  | _ => false

/-- The document of some tokens. There may be but one. A chain of calls that reads no token is shorter
than three. -/
def Document.ofTokens? (tokens : List Token) : Option Document := do
  let (root, feed) ← (Read.root (3 * tokens.length + 3)).run { tokens }
  if feed.tokens.all Token.isDocumentEnd then some { root, anchored := feed.anchored } else none

def Document.parse? (text : String) : Option Document :=
  (Token.ofText? text).bind ofTokens?

end DeclGraph.Yaml
