import DeclGraph.Language
import DeclGraph.Kind

/-! The rows of the graph as a client sees them: projects, declarations, calls between them and the
parents they name. A draft is a row before the store has given it a number. -/
namespace DeclGraph

structure Project where
  id : Int
  name : String
  rootPath : String
  /-- How many refreshes of the project have begun. -/
  generation : Int
  deriving DecidableEq, Repr

structure EntityDraft where
  language : Language
  symbol : String
  kind : EntityKind
  filename : String
  startLine : UInt32
  endLine : UInt32
  source : Option String
  deriving DecidableEq, Repr

structure Entity extends EntityDraft where
  id : Int
  projectId : Int
  deriving DecidableEq, Repr

structure CallDraft where
  callerId : Int
  calleeId : Option Int
  calleeSymbol : String
  line : UInt32
  comment : Option String
  deriving DecidableEq, Repr

structure Call extends CallDraft where
  id : Int
  deriving DecidableEq, Repr

structure Parent where
  symbol : String
  heritage : Heritage
  deriving DecidableEq, Repr

structure ParentDraft where
  childId : Option Int
  symbol : Option String
  heritage : Option Heritage
  deriving DecidableEq, Repr

/-- A stored parent of a declaration: the name it was given, and the declaration it stands for once
that is known. -/
structure ParentEdge where
  id : Int
  childId : Int
  parentId : Option Int
  symbol : String
  heritage : Heritage
  deriving DecidableEq, Repr

end DeclGraph
