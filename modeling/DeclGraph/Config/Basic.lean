import DeclGraph.Limits

/-! The settings of the library. Every setting has a default. -/
namespace DeclGraph

structure Indexing where
  maxFileBytes : UInt64 := 1048576
  excludeTests : Bool := false
  storeSource : Bool := true
  deriving DecidableEq, Repr

structure Config where
  version : String := "1.0"
  /-- Where the graph is stored, when it is not in the usual place. -/
  database : Option String := none
  traversal : Limits := {}
  indexing : Indexing := {}
  deriving DecidableEq, Repr

namespace Config

def supportedVersion : String := "1.0"

def projectFile : String := ".symgraph.yaml"

def databaseVariable : String := "SYMGRAPH_DB"

end Config

end DeclGraph
