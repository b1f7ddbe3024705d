/-! What a declaration is, and how a declaration names a parent. -/
namespace DeclGraph

inductive EntityKind where
  | function
  | cls
  | struct
  | interface
  | trait
  deriving DecidableEq, Repr

namespace EntityKind

def all : List EntityKind :=
  [.function, .cls, .struct, .interface, .trait]

def name : EntityKind → String
  | .function => "function"
  | .cls => "class"
  | .struct => "struct"
  | .interface => "interface"
  | .trait => "trait"

/-- The spellings that stand for a kind. Unlike those of languages, their case matters. -/
def spellings : EntityKind → List String
  | .function => ["function", "method"]
  | .cls => ["class"]
  | .struct => ["struct"]
  | .interface => ["interface", "protocol"]
  | .trait => ["trait"]

def ofName? (text : String) : Option EntityKind :=
  all.find? (·.name == text)

def ofSpelling? (text : String) : Option EntityKind :=
  all.find? (·.spellings.contains text)

def isType : EntityKind → Bool
  | .function => false
  | _ => true

def types : List EntityKind :=
  [.cls, .struct, .interface, .trait]

end EntityKind

inductive Heritage where
  | extension
  | implementation
  | embedding
  | mixin
  | trait
  deriving DecidableEq, Repr

namespace Heritage

def all : List Heritage :=
  [.extension, .implementation, .embedding, .mixin, .trait]

def name : Heritage → String
  | .extension => "extends"
  | .implementation => "implements"
  | .embedding => "embeds"
  | .mixin => "mixin"
  | .trait => "trait"

def ofName? (text : String) : Option Heritage :=
  all.find? (·.name == text)

end Heritage

end DeclGraph
